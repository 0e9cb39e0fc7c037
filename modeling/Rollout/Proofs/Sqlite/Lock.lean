import Rollout.Proofs.Sqlite.Transaction

/-!
The advisory lock on a connection that has its file to itself: the table holds the one row of the
lock or none, taking the lock puts the row there, and giving it back takes the row away.
-/

namespace Rollout.Sqlite

/-- The row of the lock, as it is stored. -/
def lockRow : Row := ⟨lockNumber, [.integer lockNumber, .text holder, .text ""]⟩

/-- The table of the lock. -/
def lockTableWith (name : String) (held : Bool) : Table where
  name
  columns := lockBody.columns
  rows := if held then [lockRow] else []

namespace Contents

/-- The lock's table, as the program makes it, holds the row or is empty. If it is empty it may be
missing. -/
inductive LockIs (contents : Contents) : Bool → Prop where
  | missing (view : contents.view? lockTable = none) (table : contents.table? lockTable = none) :
      LockIs contents false
  | present (held : Bool) (name : String) (view : contents.view? lockTable = none)
      (table : contents.table? lockTable = some (lockTableWith name held)) : LockIs contents held

/-- The table of the lock holds a row. -/
def HasLock (contents : Contents) : Prop :=
  ∃ table row, contents.table? lockTable = some table ∧ row ∈ table.rows

namespace LockIs

variable {contents before after : Contents} {held : Bool}

theorem view (lock : contents.LockIs held) : contents.view? lockTable = none := by
  cases lock <;> assumption

theorem agree (same : Agree lockTable before after) (lock : before.LockIs held) :
    after.LockIs held := by
  cases lock with
  | missing view table => exact .missing (same.view.trans view) (same.table.trans table)
  | present held name view table =>
      exact .present held name (same.view.trans view) (same.table.trans table)

theorem hasLock_iff (lock : contents.LockIs held) : contents.HasLock ↔ held = true := by
  cases lock with
  | missing view table => simp [HasLock, table]
  | present held name view table =>
      cases held <;> simp [HasLock, table, lockTableWith]

end LockIs

variable {contents : Contents} {name : String} {held : Bool}

theorem tableOf_lock : tableOf lockTable lockBody = .ok (lockTableWith lockTable false) := by
  have made : (tableOf lockTable lockBody).toOption = some (lockTableWith lockTable false) := by
    decide +kernel
  cases found : tableOf lockTable lockBody with
  | error fault => rw [found] at made; cases made
  | ok table => rw [found] at made; rw [Option.some.inj made]

theorem placesOf_lock :
    placesOf lockObject (lockTableWith name held) (some ["id", "holder"]) 2 =
      .ok [some 0, some 1] := by
  have id : (lockTableWith name held).place? "id" = some 0 := by
    simp [Table.place?, lockTableWith, lockBody, List.findIdx?_cons, Identifier.same_refl]
  have holder : (lockTableWith name held).place? "holder" = some 1 := by
    have other : Identifier.same "id" "holder" = false := by decide +kernel
    simp [Table.place?, lockTableWith, lockBody, List.findIdx?_cons, Identifier.same_refl, other]
  simp [placesOf, placeOf, id, holder, pure, Except.pure, bind, Except.bind]

theorem prepare_lock (view : contents.view? lockTable = none)
    (table : contents.table? lockTable = some (lockTableWith name held)) :
    contents.prepare lockObject (some ["id", "holder"]) 2 = .ok ⟨name, [some 0, some 1]⟩ := by
  have required : contents.require lockObject = .ok (lockTableWith name held) := by
    unfold require
    rw [show contents.table? lockObject.name.value = _ from table]
  unfold prepare
  rw [show contents.view? lockObject.name.value = none from view]
  simp only [required, bind, Except.bind, placesOf_lock]
  rfl

theorem lockTable_same (table : contents.table? lockTable = some (lockTableWith name held)) :
    Identifier.same name lockTable = true :=
  table?_same table

/-- What the program stores when it takes the lock. -/
def lockValues : List Value := [.integer lockNumber, .text holder]

theorem store_lock : (lockTableWith name false).store
    [(0, .integer lockNumber), (1, .text holder)] none =
      .ok (lockRow, lockTableWith name true) := rfl

theorem store_lock_taken (name : String) : ∃ fault, (lockTableWith name true).store
    [(0, .integer lockNumber), (1, .text holder)] none = .error fault := ⟨_, rfl⟩

/-- The lock's row is stored by way of its table. -/
theorem insert_lock_store (table : contents.table? lockTable = some (lockTableWith name held)) :
    contents.insert ⟨name, [some 0, some 1]⟩ lockValues =
      ((lockTableWith name held).store [(0, .integer lockNumber), (1, .text holder)] none).bind
        fun stored =>
          if stored.2.references.all fun reference =>
              (contents.update stored.2).holds stored.2 reference stored.1 then
            .ok (contents.update stored.2)
          else .error referenceBroken := by
  have found : contents.table? name = some (lockTableWith name held) := by
    rw [table?_congr (lockTable_same table)]
    exact table
  unfold insert
  rw [found]
  rfl

theorem insert_lock (view : contents.view? lockTable = none)
    (table : contents.table? lockTable = some (lockTableWith name false)) :
    ∃ after, contents.insert ⟨name, [some 0, some 1]⟩ lockValues = .ok after ∧
      after.LockIs true := by
  refine ⟨contents.update (lockTableWith name true), ?_, ?_⟩
  · rw [insert_lock_store table, store_lock]
    rfl
  · exact .present true name view (table?_update table (lockTable_same table))

theorem insert_lock_taken (table : contents.table? lockTable = some (lockTableWith name true)) :
    ∃ fault, contents.insert ⟨name, [some 0, some 1]⟩ lockValues = .error fault := by
  obtain ⟨fault, refused⟩ := store_lock_taken name
  exact ⟨fault, by rw [insert_lock_store table, refused]; rfl⟩

theorem isLockRow_lock : isLockRow (lockTableWith name held) lockRow = true := by
  have id : (lockTableWith name held).place? "id" = some 0 := by
    simp [Table.place?, lockTableWith, lockBody, List.findIdx?_cons, Identifier.same_refl]
  unfold isLockRow
  rw [id]
  decide

theorem deleteLock_lock (view : contents.view? lockTable = none)
    (table : contents.table? lockTable = some (lockTableWith name held)) :
    ∃ after, contents.deleteLock = .ok after ∧ after.LockIs false := by
  have required : contents.require lockObject = .ok (lockTableWith name held) := by
    unfold require
    rw [show contents.table? lockObject.name.value = _ from table]
  have id : (lockTableWith name held).place? "id" = some 0 := by
    simp [Table.place?, lockTableWith, lockBody, List.findIdx?_cons, Identifier.same_refl]
  have emptied : { lockTableWith name held with
      rows := (lockTableWith name held).rows.filter fun row =>
        !isLockRow (lockTableWith name held) row } = lockTableWith name false := by
    have gone : ((lockTableWith name held).rows.filter fun row =>
        !isLockRow (lockTableWith name held) row) = [] := by
      rw [List.filter_eq_nil_iff]
      intro row member
      have same : row = lockRow := by cases held <;> simp_all [lockTableWith]
      simp [same, isLockRow_lock]
    rw [gone]
    rfl
  refine ⟨contents.update (lockTableWith name false), ?_, ?_⟩
  · simp only [deleteLock, view, required, bind, Except.bind, id, Option.isNone_some,
      Bool.false_eq_true, if_false, emptied]
    rfl
  · exact .present false name view (table?_update table (lockTable_same table))

end Contents

theorem logObject_other : logObject.isMain lockTable = false := by decide +kernel

namespace State

/-- A connection that has the file to itself sees the lock as it notes it, and a transaction that
is open would restore a lock that is held. -/
structure Guarded (state : State) : Prop where
  alone : state.Alone
  isOpen : state.connection.isOpen = true
  lock : state.visible.LockIs state.connection.holdsLock
  base : state.inTransaction = true → state.file.contents.LockIs true

variable {state : State}

theorem Guarded.spares {after : State} (guarded : state.Guarded)
    (spares : Spares lockTable state after) : after.Guarded where
  alone := spares.alone
  isOpen := spares.isOpen.trans guarded.isOpen
  lock := by
    rw [spares.holdsLock]
    exact guarded.lock.agree spares.agree
  base noted := by
    have before := spares.inTransaction.symm.trans noted
    rw [spares.base before]
    exact guarded.base before

theorem Guarded.locked {after : State} {held : Bool} (guarded : state.Guarded)
    (within : Within state after) (lock : after.visible.LockIs held) :
    (after.setLock held).Guarded where
  alone := ⟨within.alone.readers, within.alone.writer⟩
  isOpen := within.isOpen.trans guarded.isOpen
  lock := lock
  base noted := by
    have before : state.inTransaction = true := within.inTransaction.symm.trans noted
    have same : after.file.contents.LockIs true := by
      rw [within.base before]
      exact guarded.base before
    exact same

theorem schema?_main (alone : state.Alone) :
    state.schema? mainSchema = .ok (some state.visible) := by
  simp [schema?, Identifier.same_refl, seen_alone alone, Except.map]

theorem contentsOf_lock (alone : state.Alone) :
    state.contentsOf lockObject = .ok state.visible := by
  rw [contentsOf, show lockObject.schemaName = mainSchema from rfl, schema?_main alone]
  rfl

theorem change_main {change : Contents → Except Fault Contents} :
    state.change mainSchema change = state.changeFile change := by
  simp [State.change, Identifier.same_refl]

theorem createTable_lock {held : Bool} (alone : state.Alone) (lock : state.visible.LockIs held) :
    ∃ after name, state.createTable true lockObject (.ok lockBody) = (.ok (), after) ∧
      Within state after ∧ after.visible.view? lockTable = none ∧
      after.visible.table? lockTable = some (lockTableWith name held) := by
  have schema : state.schemaOf lockObject = .ok state.visible := by
    unfold schemaOf
    rw [show lockObject.schemaName = mainSchema from rfl, schema?_main alone]
    rfl
  have named : lockObject.name.value = lockTable := rfl
  cases lock with
  | present held name view table =>
      -- the statement does nothing but read
      have taken : state.visible.isTaken lockTable = true := by simp [Contents.isTaken, table]
      obtain ⟨within, visible⟩ := noteRead_within alone mainSchema
      refine ⟨state.noteRead mainSchema, name, ?_, within, ?_, ?_⟩
      · simp only [createTable, schema, named, Except.map, Except.toOption, taken, Bool.true_and,
          beq_self_eq_true, if_true]
        rfl
      · rw [visible]
        exact view
      · rw [visible]
        exact table
  | missing view table =>
      have free : state.visible.isTaken lockTable = false := by
        simp [Contents.isTaken, table, view]
      have allowed : state.visible.checkNew lockObject = .ok () := by
        have allowed : Identifier.isReserved lockTable = false := by decide
        simp [Contents.checkNew, named, allowed, table, view, pure, Except.pure]
      obtain ⟨after, ended, within, visible⟩ := changeFile_ok
        (fun contents => .ok (contents.addTable (lockTableWith lockTable false))) alone rfl
      refine ⟨after, lockTable, ?_, within, ?_, ?_⟩
      · simp only [createTable, schema, named, Except.map, Except.toOption, free, Bool.true_and,
          changeBy, bind, Except.bind, allowed, Contents.tableOf_lock]
        rw [show lockObject.schemaName = mainSchema from rfl, change_main]
        exact ended
      · rw [visible]
        exact view
      · have itself : Identifier.same (lockTableWith lockTable false).name lockTable = true :=
          Identifier.same_refl lockTable
        have vacant : state.visible.tables.find?
            (fun table => Identifier.same table.name lockTable) = none := table
        simp [visible, Contents.table?, Contents.addTable, List.find?_append, vacant, itself]

theorem prepareInsert_lock {name : String} {held : Bool} (alone : state.Alone)
    (view : state.visible.view? lockTable = none)
    (table : state.visible.table? lockTable = some (lockTableWith name held)) :
    state.prepareInsert lockObject (some ["id", "holder"]) 2 = .ok ⟨name, [some 0, some 1]⟩ := by
  simp only [prepareInsert, contentsOf_lock alone, bind, Except.bind]
  exact Contents.prepare_lock view table

/-- Once its table is there, keeping the row of the lock is one change to the file. -/
theorem keep_lock {made : State} {name : String} {held : Bool}
    (created : state.createTable true lockObject (.ok lockBody) = (.ok (), made))
    (alone : made.Alone) (view : made.visible.view? lockTable = none)
    (table : made.visible.table? lockTable = some (lockTableWith name held)) :
    state.keep lockObject lockBody ["id", "holder"]
        [.integer lockNumber, .text holder] =
      made.changeFile (·.insert ⟨name, [some 0, some 1]⟩ Contents.lockValues) := by
  unfold keep
  rw [created]
  simp only [List.length_cons, List.length_nil, Nat.reduceAdd,
    prepareInsert_lock alone view table, insertRow]
  rw [show lockObject.schemaName = mainSchema from rfl, change_main]
  rfl

theorem lock_free (guarded : state.Guarded) (free : state.connection.holdsLock = false) :
    ∃ after, state.lock = (.ok (), after) ∧ after.Guarded ∧
      after.connection.holdsLock = true := by
  have lock := guarded.lock
  rw [free] at lock
  obtain ⟨made, name, created, within, view, table⟩ := createTable_lock guarded.alone lock
  obtain ⟨contents, inserted, taken⟩ := Contents.insert_lock view table
  obtain ⟨after, ended, later, visible⟩ :=
    changeFile_ok (·.insert _ Contents.lockValues) within.alone inserted
  refine ⟨after.setLock true, ?_, guarded.locked (within.trans later) (by rwa [visible]), rfl⟩
  simp only [State.lock, free, guarded.isOpen, Bool.not_true, Bool.false_eq_true, if_false]
  rw [keep_lock created within.alone view table, ended]

theorem lock_taken (alone : state.Alone) (free : state.connection.holdsLock = false)
    (lock : state.visible.LockIs true) : ∃ error after, state.lock = (.error error, after) := by
  obtain ⟨made, name, created, within, view, table⟩ := createTable_lock alone lock
  obtain ⟨fault, refused⟩ := Contents.insert_lock_taken table
  obtain ⟨after, ended, -⟩ :=
    changeFile_error (·.insert _ Contents.lockValues) within.alone refused
  simp only [State.lock, free, Bool.false_eq_true, if_false]
  rw [keep_lock created within.alone view table, ended]
  split
  · exact ⟨_, _, rfl⟩
  · dsimp only
    split
    · unfold refuseLock
      split
      · exact ⟨_, _, rfl⟩
      · dsimp only
        split <;> exact ⟨_, _, rfl⟩
    · exact ⟨_, _, rfl⟩

theorem unlock_held (guarded : state.Guarded) (held : state.connection.holdsLock = true) :
    ∃ after, state.unlock = (.ok (), after) ∧ after.Guarded ∧
      after.connection.holdsLock = false := by
  have lock := guarded.lock
  rw [held] at lock
  obtain ⟨name, view, table⟩ : ∃ name, state.visible.view? lockTable = none ∧
      state.visible.table? lockTable = some (lockTableWith name true) := by
    cases lock with
    | present _ name view table => exact ⟨name, view, table⟩
  obtain ⟨contents, deleted, gone⟩ := Contents.deleteLock_lock view table
  obtain ⟨after, ended, within, visible⟩ :=
    changeFile_ok (·.deleteLock) guarded.alone deleted
  refine ⟨after.setLock false, ?_, guarded.locked within (by rwa [visible]), rfl⟩
  simp only [State.unlock, held, guarded.isOpen, Bool.not_true, Bool.false_eq_true, if_false,
    contentsOf_lock guarded.alone, bind, Except.bind, deleted, Functor.discard, Functor.mapConst,
    Function.comp, Except.map, changeBy, change_main]
  rw [ended]

/-- Whether the lock is taken or refused, it stays guarded. -/
theorem lock_guarded (guarded : state.Guarded) : state.lock.2.Guarded := by
  cases held : state.connection.holdsLock with
  | true =>
      simp only [State.lock, held, if_true]
      exact guarded
  | false =>
      obtain ⟨after, taken, later, -⟩ := lock_free guarded held
      rwa [taken]

theorem lock_holds (guarded : state.Guarded) (answered : state.lock.1 = .ok ()) :
    state.lock.2.connection.holdsLock = true := by
  cases held : state.connection.holdsLock with
  | true => simp [State.lock, held] at answered
  | false =>
      obtain ⟨after, taken, -, holds⟩ := lock_free guarded held
      rwa [taken]

theorem unlock_guarded (guarded : state.Guarded) (held : state.connection.holdsLock = true) :
    state.unlock.2.Guarded := by
  obtain ⟨after, released, later, -⟩ := unlock_held guarded held
  rwa [released]

/-- The start or the end of a transaction keeps a lock that is seen to be held afterwards. -/
theorem Guarded.across {after : State} (guarded : state.Guarded)
    (held : state.connection.holdsLock = true) (across : Across state after)
    (lock : after.visible.LockIs true)
    (base : after.inTransaction = true → after.file.contents.LockIs true) :
    after.Guarded ∧ after.connection.holdsLock = true := by
  have still := across.holdsLock.trans held
  exact ⟨⟨across.alone, across.isOpen.trans guarded.isOpen, by rwa [still], base⟩, still⟩

theorem begin_guarded (guarded : state.Guarded) (held : state.connection.holdsLock = true) :
    state.beginTransaction.2.Guarded ∧ state.beginTransaction.2.connection.holdsLock = true := by
  cases noted : state.inTransaction with
  | true =>
      simp only [beginTransaction, noted, if_true]
      exact ⟨guarded, held⟩
  | false =>
      obtain ⟨after, began, across, visible, file⟩ :=
        begin_across guarded.alone guarded.isOpen noted
      have lock := guarded.lock
      rw [held] at lock
      rw [began]
      refine guarded.across held across (by rwa [visible]) fun _ => ?_
      rwa [file, ← visible_of_idle noted]

theorem commit_guarded (guarded : state.Guarded) (held : state.connection.holdsLock = true) :
    state.commitTransaction.2.Guarded ∧ state.commitTransaction.2.connection.holdsLock = true := by
  cases noted : state.inTransaction with
  | false =>
      simp only [commitTransaction, noted, Bool.not_false, if_true]
      exact ⟨guarded, held⟩
  | true =>
      obtain ⟨after, ended, across, visible⟩ := commit_across guarded.alone guarded.isOpen noted
      have lock := guarded.lock
      rw [held] at lock
      rw [ended]
      refine guarded.across held across (by rwa [visible]) fun still => ?_
      rw [across.inTransaction, noted] at still
      cases still

theorem rollback_guarded (guarded : state.Guarded) (held : state.connection.holdsLock = true) :
    state.rollBackTransaction.2.Guarded ∧
      state.rollBackTransaction.2.connection.holdsLock = true := by
  cases noted : state.inTransaction with
  | false =>
      simp only [rollBackTransaction, noted, Bool.not_false, if_true]
      exact ⟨guarded, held⟩
  | true =>
      obtain ⟨after, ended, across, visible⟩ := rollback_across guarded.alone guarded.isOpen noted
      rw [ended]
      refine guarded.across held across (by rw [visible]; exact guarded.base noted) fun still => ?_
      rw [across.inTransaction, noted] at still
      cases still

/-- The calls of a batch keep a lock that is held. -/
theorem perform_guarded {call : Database.Call} (guarded : state.Guarded)
    (held : state.connection.holdsLock = true) (kind : call.inBatch = true)
    (spared : sparesTable lockTable call = true) :
    (perform call state).2.Guarded ∧ (perform call state).2.connection.holdsLock = true := by
  have onData (data : call.isData = true) :
      (perform call state).2.Guarded ∧ (perform call state).2.connection.holdsLock = true := by
    have spares := perform_spares guarded.alone logObject_other data spared
    exact ⟨guarded.spares spares, spares.holdsLock.trans held⟩
  cases call with
  | begin => exact begin_guarded guarded held
  | commit => exact commit_guarded guarded held
  | rollback => exact rollback_guarded guarded held
  | lock | unlock | close => cases kind
  | _ => exact onData rfl

/-- Without a transaction, closing leaves the file as it is. -/
theorem close_idle (isOpen : state.connection.isOpen = true) (idle : state.inTransaction = false) :
    ∃ after, state.close = (.ok (), after) ∧ after.file = state.file := by
  unfold inTransaction at idle
  cases found : state.connection.transaction with
  | none =>
      simp only [State.close, isOpen, State.rollback, found, Bool.not_true, Bool.false_eq_true,
        if_false]
      exact ⟨_, rfl, rfl⟩
  | some transaction => simp [found] at idle

/-- The file without its one connection. -/
theorem Alone.fresh (alone : state.Alone) (idle : state.inTransaction = false) :
    ({ file := state.file } : State).Alone := by
  unfold inTransaction at idle
  cases found : state.connection.transaction with
  | none =>
      have readers := alone.readers
      have writer := alone.writer
      simp only [use, found] at readers writer
      exact ⟨readers, writer⟩
  | some transaction => simp [found] at idle

/-- A new connection can take the lock if nobody holds it. -/
theorem lock_fresh_iff {file : File} {held : Bool} (alone : ({ file } : State).Alone)
    (lock : file.contents.LockIs held) : ({ file } : State).lock.1 = .ok () ↔ held = false := by
  cases held with
  | false =>
      have guarded : ({ file } : State).Guarded :=
        ⟨alone, rfl, lock, fun noted => by cases noted⟩
      obtain ⟨after, taken, -⟩ := lock_free guarded rfl
      simp [taken]
  | true =>
      obtain ⟨error, after, refused⟩ := lock_taken alone rfl lock
      simp [refused]

end State

end Rollout.Sqlite
