import Rollout.Proofs.Database.Conversation
import Rollout.Proofs.Sqlite.Lock

/-!
A file that several connections share. A connection with no transaction and without the lock leaves
the file as it is, except by taking the lock, and it cannot take a lock that has been committed.
What the one connection in use does to the lock goes by the phase of its conversation.
-/

namespace Rollout.Sqlite

open Database (Exchange Phase phaseOf holding)

/-- The connection has no transaction open and has not taken the lock. -/
structure Connection.Quiet (connection : Connection) : Prop where
  idle : connection.transaction = none
  free : connection.holdsLock = false

namespace State

variable {state : State}

section Idle

variable (idle : state.connection.transaction = none)

include idle

theorem not_inTransaction : state.inTransaction = false := by simp [inTransaction, idle]

theorem counted_idle : state.counted = state := by simp [counted, idle]

theorem noteRead_idle (schema : String) : state.noteRead schema = state := by
  unfold noteRead
  rw [counted_idle idle, ite_self]

theorem referencesOf_idle (schemas : List String) : (referencesOf schemas state).2 = state := by
  induction schemas with
  | nil => rfl
  | cons schema rest ih =>
      unfold referencesOf
      split
      · rfl
      · dsimp only
        rw [noteRead_idle idle, ih]

theorem asks_idle {call : Database.Call} (asks : call.asks = true) :
    (perform call state).2 = state := by
  cases call with
  | schemaNames =>
      simp only [perform, State.schemaNames]
      split <;> rfl
  | foreignKeys =>
      simp only [perform, State.foreignKeys]
      split
      · rfl
      · exact referencesOf_idle idle _
  | schemaItems schema kind =>
      simp only [perform, State.schemaItems]
      repeat' split
      all_goals first | rfl | exact noteRead_idle idle schema
  | _ => cases asks

theorem rollBackTransaction_idle : (perform .rollback state).2 = state := by
  simp [perform, rollBackTransaction, not_inTransaction idle]

/-- Without a transaction nothing but the connection is closed. -/
theorem close_same : (perform .close state).2.file = state.file ∧
    (perform .close state).2.connection.transaction = none ∧
    (perform .close state).2.connection.holdsLock = state.connection.holdsLock := by
  simp only [perform, State.close]
  split
  · exact ⟨rfl, idle, rfl⟩
  · simp [State.rollback, idle, withConnection]

theorem seen_idle (writer : state.file.writer ≠ .waiting) :
    state.seen = .ok state.file.contents := by
  simp [seen, idle, writer]

theorem alone_idle (alone : state.Alone) :
    state.file.readers = 0 ∧ state.file.writer = .nobody := by
  have none : state.use = .none := by simp [use, idle]
  have readers := alone.readers
  have writer := alone.writer
  rw [none] at readers writer
  exact ⟨readers, writer⟩

end Idle

section Refused

/-- The lock's table is there, so that nothing is made. -/
theorem createTable_committed {name : String} (idle : state.connection.transaction = none)
    (writer : state.file.writer ≠ .waiting)
    (table : state.file.contents.table? lockTable = some (lockTableWith name true)) :
    state.createTable true lockObject (.ok lockBody) = (.ok (), state) := by
  have schema : state.schemaOf lockObject = .ok state.file.contents := by
    simp [schemaOf, schema?, show lockObject.schemaName = mainSchema from rfl,
      Identifier.same_refl, seen_idle idle writer, Except.map, bind, Except.bind, pure,
      Except.pure]
  have taken : state.file.contents.isTaken lockTable = true := by simp [Contents.isTaken, table]
  simp only [createTable, schema, show lockObject.name.value = lockTable from rfl, Except.map,
    Except.toOption, taken, Bool.true_and, beq_self_eq_true, if_true]
  rw [noteRead_idle idle]

/-- What would be changed is refused, or another connection is changing the file. -/
theorem changeFile_refused (change : Contents → Except Fault Contents) {fault : Fault}
    (idle : state.connection.transaction = none) (writer : state.file.writer ≠ .waiting)
    (refused : change state.file.contents = .error fault) :
    ∃ fault, state.changeFile change = (.error fault, state) := by
  simp only [changeFile, seen_idle idle writer, idle, refused]
  split
  · exact ⟨_, rfl⟩
  · exact ⟨_, rfl⟩

theorem refuseLock_idle (idle : state.connection.transaction = none) :
    ∃ error, state.refuseLock = (.error error, state) := by
  unfold refuseLock
  split
  · exact ⟨_, rfl⟩
  · dsimp only
    rw [noteRead_idle idle]
    split <;> exact ⟨_, rfl⟩

/-- A lock that has been committed is not taken again, and the file stays as it is. -/
theorem lock_refused (quiet : state.connection.Quiet) (writer : state.file.writer ≠ .waiting)
    (lock : state.file.contents.LockIs true) : ∃ error, state.lock = (.error error, state) := by
  obtain ⟨name, view, table⟩ : ∃ name, state.file.contents.view? lockTable = none ∧
      state.file.contents.table? lockTable = some (lockTableWith name true) := by
    cases lock with
    | present _ name view table => exact ⟨name, view, table⟩
  obtain ⟨fault, taken⟩ := Contents.insert_lock_taken table
  obtain ⟨fault, refused⟩ := changeFile_refused (·.insert _ Contents.lockValues)
    quiet.idle writer taken
  have kept : state.keep lockObject lockBody ["id", "holder"]
      [.integer lockNumber, .text holder] = (.error fault, state) := by
    have prepared : state.prepareInsert lockObject (some ["id", "holder"]) 2 =
        .ok ⟨name, [some 0, some 1]⟩ := by
      have contents : state.contentsOf lockObject = .ok state.file.contents := by
        simp [contentsOf, schema?, show lockObject.schemaName = mainSchema from rfl,
          Identifier.same_refl, seen_idle quiet.idle writer, Except.map]
      simp only [prepareInsert, contents, bind, Except.bind]
      exact Contents.prepare_lock view table
    unfold keep
    rw [createTable_committed quiet.idle writer table]
    simp only [List.length_cons, List.length_nil, Nat.reduceAdd, prepared, insertRow]
    rw [show lockObject.schemaName = mainSchema from rfl, change_main]
    exact refused
  simp only [State.lock, quiet.free, Bool.false_eq_true, if_false, kept]
  split
  · exact ⟨_, rfl⟩
  · split
    · exact refuseLock_idle quiet.idle
    · exact ⟨_, rfl⟩

end Refused

/-- A call other than those of a batch leaves a quiet connection quiet, and the file as it is. -/
theorem perform_quiet {call : Database.Call} (quiet : state.connection.Quiet)
    (kind : call = .rollback ∨ call = .close ∨ call.asks = true) :
    (perform call state).2.file = state.file ∧ (perform call state).2.connection.Quiet := by
  rcases kind with rfl | rfl | asks
  · rw [rollBackTransaction_idle quiet.idle]
    exact ⟨rfl, quiet⟩
  · obtain ⟨file, idle, lock⟩ := close_same quiet.idle
    exact ⟨file, idle, lock.trans quiet.free⟩
  · rw [asks_idle quiet.idle asks]
    exact ⟨rfl, quiet⟩

/-- Alone with the file, a connection without a transaction leaves no marks in it. -/
theorem Alone.of_file {after : State} (alone : state.Alone)
    (idle : state.connection.transaction = none) (file : after.file = state.file)
    (still : after.connection.transaction = none) : after.Alone := by
  obtain ⟨readers, writer⟩ := alone_idle idle alone
  have none : after.use = .none := by simp [use, still]
  refine ⟨?_, ?_⟩ <;> rw [file, none]
  · exact readers
  · exact writer

/-- Closing ends the transaction; what it would have restored is there again. -/
theorem close_ends (alone : state.Alone) (isOpen : state.connection.isOpen = true) :
    (perform .close state).2.connection.transaction = none ∧
      (perform .close state).2.connection.holdsLock = state.connection.holdsLock ∧
      (perform .close state).2.Alone ∧
      (perform .close state).2.file.contents = state.file.contents := by
  simp only [perform, State.close, isOpen, Bool.not_true, Bool.false_eq_true, if_false]
  obtain ⟨⟨contents, readers, writer⟩, ⟨isOpen, holdsLock, schemas, transaction⟩⟩ := state
  have readers := alone.readers
  have writer := alone.writer
  -- no transaction, or one that has done nothing, has read, or has written
  rcases transaction with _ | ⟨_ | _ | earlier, saved⟩ <;>
    simp only [use, Use.readers, Use.writer] at readers writer
  · exact ⟨rfl, rfl, ⟨readers, writer⟩, rfl⟩
  · exact ⟨rfl, rfl, ⟨readers, writer⟩, rfl⟩
  · simp only [State.rollback, readers]
    exact ⟨rfl, rfl, ⟨rfl, writer⟩, rfl⟩
  · exact ⟨rfl, rfl, ⟨readers, rfl⟩, rfl⟩

end State

/-- What a file and the one connection in use have come to, by what was said over it. The lock is
in the file with no connection in use, or not; or the connection holds it, or has given it back
within a transaction; or the connection has been closed over it. -/
inductive Stage (state : State) (said : List Exchange) : Prop where
  | settled {held : Bool} (quiet : state.connection.Quiet) (alone : state.Alone)
      (lock : state.file.contents.LockIs held)
  | guarded (guarded : state.Guarded)
      (inUse : state.connection.holdsLock = true ∨ state.inTransaction = true)
  | closed (phase : phaseOf said = some .closed) (idle : state.connection.transaction = none)
      (alone : state.Alone) (lock : state.file.contents.LockIs true)

namespace Stage

variable {state : State} {said : List Exchange}

/-- Unless no connection is in use, the lock is in the file. -/
theorem shut (stage : Stage state said) (inUse : ¬ state.connection.Quiet) :
    state.file.contents.LockIs true ∧ state.file.writer ≠ .waiting := by
  cases stage with
  | settled quiet => exact absurd quiet inUse
  | closed phase idle alone lock =>
      rw [(State.alone_idle idle alone).2]
      exact ⟨lock, nofun⟩
  | guarded guarded inUse =>
      constructor
      · cases noted : state.inTransaction with
        | true => exact guarded.base noted
        | false =>
            have held : state.connection.holdsLock = true := by simpa [noted] using inUse
            have lock := guarded.lock
            rwa [held, State.visible_of_idle noted] at lock
      · rw [guarded.alone.writer]
        cases state.use <;> nofun

/-- Before the connection is closed, it is not in use or it is guarded. -/
theorem live (stage : Stage state said) (live : phaseOf said ≠ some .closed) :
    (∃ held, state.connection.Quiet ∧ state.Alone ∧ state.file.contents.LockIs held) ∨
      state.Guarded ∧ (state.connection.holdsLock = true ∨ state.inTransaction = true) := by
  cases stage with
  | settled quiet alone lock => exact .inl ⟨_, quiet, alone, lock⟩
  | guarded guarded inUse => exact .inr ⟨guarded, inUse⟩
  | closed phase => exact absurd phase live

/-- The part of a connection in use passes to another one once it is quiet. -/
theorem pass {connection : Connection} (stage : Stage state said) (quiet : state.connection.Quiet)
    (other : connection.Quiet) (words : List Exchange) :
    Stage { state with connection } words := by
  cases stage with
  | settled quiet alone lock =>
      exact .settled other (alone.of_file quiet.idle rfl other.idle) lock
  | closed phase idle alone lock =>
      exact .settled other (alone.of_file idle rfl other.idle) lock
  | guarded guarded inUse =>
      rw [quiet.free, State.not_inTransaction quiet.idle] at inUse
      simp at inUse

end Stage

/-- A connection makes a call, which leaves the lock's table alone, or the call fails before it is
made. -/
inductive Performs (state : State) : Exchange → State → Prop where
  | made (call : Database.Call) (spared : sparesTable lockTable call = true) :
      Performs state
        ⟨call, (State.perform call state).1, (State.perform call state).2.inTransaction⟩
        (State.perform call state).2
  | failed (call : Database.Call) (error : DatabaseError) :
      Performs state ⟨call, .error error, state.inTransaction⟩ state

/-- The stage that the connection in use is at. It notes the lock as its conversation has it. -/
structure Standing (state : State) (said : List Exchange) : Prop where
  stage : Stage state said
  linked : holding said = state.connection.holdsLock

namespace Standing

variable {state : State} {said : List Exchange} {call : Database.Call} {isOpen : Bool}

/-- A call that fails without a trace changes nothing. -/
theorem failed (standing : Standing state said) (live : phaseOf said ≠ some .closed)
    (error : DatabaseError) :
    Standing state (said ++ [⟨call, .error error, isOpen⟩]) where
  stage := by
    rcases standing.stage.live live with ⟨held, quiet, alone, lock⟩ | ⟨guarded, inUse⟩
    · exact .settled quiet alone lock
    · exact .guarded guarded inUse
  linked := by
    rw [Database.holding_append, Database.holdsAfter_error]
    exact standing.linked

/-- Calls that have nothing to do with the lock leave it as it is noted. -/
theorem linked_other {answer : Except DatabaseError call.Reply} {after : State}
    (standing : Standing state said) (lock : call ≠ .lock) (unlock : call ≠ .unlock)
    (kept : after.connection.holdsLock = state.connection.holdsLock) :
    holding (said ++ [⟨call, answer, isOpen⟩]) = after.connection.holdsLock := by
  rw [Database.holding_append, Database.holdsAfter_other lock unlock, standing.linked, kept]

theorem lock_free (guarded : state.Guarded) (free : state.connection.holdsLock = false) :
    Standing (State.perform .lock state).2
      (said ++ [⟨.lock, (State.perform .lock state).1, isOpen⟩]) := by
  obtain ⟨after, taken, later, held⟩ := State.lock_free guarded free
  rw [show State.perform .lock state = _ from taken]
  refine ⟨.guarded later (.inl held), ?_⟩
  rw [Database.holding_append, held]
  rfl

theorem lock (standing : Standing state said) (live : phaseOf said ≠ some .closed) :
    Standing (State.perform .lock state).2
      (said ++ [⟨.lock, (State.perform .lock state).1, isOpen⟩]) := by
  have refused (same : ∃ error, State.perform .lock state = (.error error, state)) :
      Standing (State.perform .lock state).2
        (said ++ [⟨.lock, (State.perform .lock state).1, isOpen⟩]) := by
    obtain ⟨error, same⟩ := same
    rw [same]
    exact standing.failed live error
  rcases standing.stage.live live with ⟨held, quiet, alone, lock⟩ | ⟨guarded, inUse⟩
  · cases held with
    | true =>
        have writer : state.file.writer ≠ .waiting := by
          rw [(State.alone_idle quiet.idle alone).2]
          nofun
        exact refused (State.lock_refused quiet writer lock)
    | false =>
        cases opened : state.connection.isOpen with
        | false => exact refused ⟨_, by simp [State.perform, State.lock, quiet.free, opened]; rfl⟩
        | true =>
            have seen : state.visible.LockIs state.connection.holdsLock := by
              rwa [quiet.free, State.visible_of_idle (State.not_inTransaction quiet.idle)]
            refine lock_free ⟨alone, opened, seen, fun noted => ?_⟩ quiet.free
            rw [State.not_inTransaction quiet.idle] at noted
            cases noted
  · cases held : state.connection.holdsLock with
    | true => exact refused ⟨_, by simp [State.perform, State.lock, held]; rfl⟩
    | false => exact lock_free guarded held

theorem asks (standing : Standing state said) (live : phaseOf said ≠ some .closed)
    (asks : call.asks = true) :
    Standing (State.perform call state).2
      (said ++ [⟨call, (State.perform call state).1, isOpen⟩]) := by
  have lock : call ≠ .lock := by rintro rfl; cases asks
  have unlock : call ≠ .unlock := by rintro rfl; cases asks
  rcases standing.stage.live live with ⟨held, quiet, alone, lockIs⟩ | ⟨guarded, inUse⟩
  · have same := State.asks_idle quiet.idle asks
    refine ⟨?_, standing.linked_other lock unlock (by rw [same])⟩
    rw [same]
    exact .settled quiet alone lockIs
  · have data : call.isData = true := by cases call <;> first | rfl | cases asks
    have spared : sparesTable lockTable call = true := by cases call <;> first | rfl | cases asks
    have spares := perform_spares guarded.alone logObject_other data spared
    refine ⟨.guarded (guarded.spares spares) ?_, standing.linked_other lock unlock spares.holdsLock⟩
    rwa [spares.holdsLock, spares.inTransaction]

/-- Rolling back restores a lock that was given back within the transaction. -/
theorem rollback (standing : Standing state said) (live : phaseOf said ≠ some .closed) :
    Standing (State.perform .rollback state).2
      (said ++ [⟨.rollback, (State.perform .rollback state).1, isOpen⟩]) := by
  rcases standing.stage.live live with ⟨held, quiet, alone, lock⟩ | ⟨guarded, inUse⟩
  · have same := State.rollBackTransaction_idle quiet.idle
    refine ⟨?_, standing.linked_other nofun nofun (by rw [same])⟩
    rw [same]
    exact .settled quiet alone lock
  · cases held : state.connection.holdsLock with
    | true =>
        obtain ⟨after, still⟩ := State.rollback_guarded guarded held
        exact ⟨.guarded after (.inl still),
          standing.linked_other nofun nofun (still.trans held.symm)⟩
    | false =>
        have noted : state.inTransaction = true := by simpa [held] using inUse
        obtain ⟨after, ended, across, visible⟩ :=
          State.rollback_across guarded.alone guarded.isOpen noted
        rw [show State.perform .rollback state = _ from ended]
        have idle : after.inTransaction = false := by rw [across.inTransaction, noted]; rfl
        have quiet : after.connection.Quiet := by
          refine ⟨?_, across.holdsLock.trans held⟩
          simpa [State.inTransaction] using idle
        have lock : after.file.contents.LockIs true := by
          rw [← State.visible_of_idle idle, visible]
          exact guarded.base noted
        exact ⟨.settled quiet across.alone lock, standing.linked_other nofun nofun across.holdsLock⟩

theorem close (standing : Standing state said) (live : phaseOf said ≠ some .closed)
    (phased : phaseOf (said ++ [⟨.close, (State.perform .close state).1, isOpen⟩]) =
      some .closed) :
    Standing (State.perform .close state).2
      (said ++ [⟨.close, (State.perform .close state).1, isOpen⟩]) := by
  rcases standing.stage.live live with ⟨held, quiet, alone, lock⟩ | ⟨guarded, inUse⟩
  · obtain ⟨file, idle, same⟩ := State.close_same quiet.idle
    have still : (State.perform .close state).2.connection.Quiet := ⟨idle, same.trans quiet.free⟩
    have left : (State.perform .close state).2.file.contents.LockIs held := by rwa [file]
    exact ⟨.settled still (alone.of_file quiet.idle file idle) left,
      standing.linked_other nofun nofun same⟩
  · obtain ⟨idle, same, alone, contents⟩ := State.close_ends guarded.alone guarded.isOpen
    refine ⟨.closed phased idle alone ?_, standing.linked_other nofun nofun same⟩
    have busy : ¬ state.connection.Quiet := by
      intro quiet
      rw [quiet.free, State.not_inTransaction quiet.idle] at inUse
      simp at inUse
    rw [contents]
    exact ((Stage.guarded guarded inUse : Stage state said).shut busy).1

section Held

variable (standing : Standing state said) (inside : phaseOf said = some .inside)

include standing inside

/-- In the inner phase the lock is held and guarded. -/
theorem held : state.Guarded ∧ state.connection.holdsLock = true := by
  have held : state.connection.holdsLock = true :=
    standing.linked.symm.trans (Database.holding_inside inside)
  have live : phaseOf said ≠ some .closed := by rw [inside]; nofun
  rcases standing.stage.live live with ⟨-, quiet, -⟩ | ⟨guarded, -⟩
  · rw [quiet.free] at held
    cases held
  · exact ⟨guarded, held⟩

theorem batch (kind : call.inBatch = true) (spared : sparesTable lockTable call = true) :
    Standing (State.perform call state).2
      (said ++ [⟨call, (State.perform call state).1, isOpen⟩]) := by
  obtain ⟨guarded, held⟩ := standing.held inside
  obtain ⟨after, still⟩ := State.perform_guarded guarded held kind spared
  refine ⟨.guarded after (.inl still), standing.linked_other ?_ ?_ (still.trans held.symm)⟩ <;>
    rintro rfl <;> cases kind

theorem unlock :
    Standing (State.perform .unlock state).2
      (said ++ [⟨.unlock, (State.perform .unlock state).1, isOpen⟩]) := by
  obtain ⟨guarded, held⟩ := standing.held inside
  obtain ⟨after, released, later, free⟩ := State.unlock_held guarded held
  rw [show State.perform .unlock state = _ from released]
  refine ⟨?_, by rw [Database.holding_append, free]; rfl⟩
  -- within a transaction the row is gone for this connection only
  cases noted : after.inTransaction with
  | true => exact .guarded later (.inr noted)
  | false =>
      have lock := later.lock
      rw [State.visible_of_idle noted] at lock
      exact .settled ⟨by simpa [State.inTransaction] using noted, free⟩ later.alone lock

end Held

/-- Whatever the connection in use does that has its place, it stays at one of the stages. -/
theorem step {exchange : Exchange} {after : State} {last : Phase} (standing : Standing state said)
    (performs : Performs state exchange after) (phased : phaseOf said = some phase)
    (next : phase.next exchange = some last) : Standing after (said ++ [exchange]) := by
  have live : phaseOf said ≠ some .closed := by
    rw [phased]
    rintro ⟨⟩
    cases next
  cases performs with
  | failed call error => exact standing.failed live error
  | made call spared =>
      rcases Phase.next_cases next with ⟨-, rfl | rfl | asks⟩ | ⟨rfl, rfl⟩ | ⟨rfl, rfl | kind⟩
      · exact standing.lock live
      · exact standing.rollback live
      · exact standing.asks live asks
      · refine standing.close live ?_
        rw [Database.phaseOf_append, phased]
        exact next
      · exact standing.unlock phased
      · exact standing.batch phased kind spared

end Standing

/-- While the lock is in the file, a quiet connection leaves the file as it is and stays quiet. -/
theorem elsewhere_step {state after : State} {said : List Exchange} {exchange : Exchange}
    {phase last : Phase} (quiet : state.connection.Quiet)
    (linked : holding said = state.connection.holdsLock) (writer : state.file.writer ≠ .waiting)
    (lock : state.file.contents.LockIs true) (performs : Performs state exchange after)
    (phased : phaseOf said = some phase) (next : phase.next exchange = some last) :
    after.file = state.file ∧ after.connection.Quiet ∧
      holding (said ++ [exchange]) = after.connection.holdsLock := by
  have free : holding said = false := linked.trans quiet.free
  cases performs with
  | failed call error =>
      rw [Database.holding_append, Database.holdsAfter_error]
      exact ⟨rfl, quiet, linked⟩
  | made call spared =>
      have other (kind : call = .rollback ∨ call = .close ∨ call.asks = true) :
          (State.perform call state).2.file = state.file ∧
            (State.perform call state).2.connection.Quiet ∧
            holding (said ++ [⟨call, (State.perform call state).1,
              (State.perform call state).2.inTransaction⟩]) =
                (State.perform call state).2.connection.holdsLock := by
        obtain ⟨file, still⟩ := State.perform_quiet quiet kind
        refine ⟨file, still, ?_⟩
        rw [Database.holding_append, Database.holdsAfter_other, free, still.free]
        · rintro rfl
          simp [Database.Call.asks] at kind
        · rintro rfl
          simp [Database.Call.asks] at kind
      rcases Phase.next_cases next with ⟨-, rfl | kind⟩ | ⟨kind, -⟩ | ⟨rfl, -⟩
      · obtain ⟨error, same⟩ := State.lock_refused quiet writer lock
        rw [show State.perform .lock state = _ from same, Database.holding_append,
          Database.holdsAfter_error]
        exact ⟨rfl, quiet, linked⟩
      · exact other (kind.imp_right .inr)
      · exact other (.inr (.inl kind))
      · rw [Database.holding_inside phased] at free
        cases free

end Rollout.Sqlite
