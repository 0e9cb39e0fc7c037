import Rollout.Proofs.Database.Calls
import Rollout.Proofs.Session.Context
import Rollout.Proofs.Session.Run
import Rollout.Proofs.Sqlite.Lock

/-!
What becomes of the advisory lock. A session takes the lock before a batch that has effects and
gives it back afterwards, outside or inside of a transaction that the batch may leave open; closing
rolls such a transaction back. Calls may fail at any time.
-/

namespace Rollout

namespace Sqlite

/-- The state of a database, how many calls there were, and which. -/
abbrev Watched := (State × Nat) × List Database.Call

/-- The database, with calls that fail now and then, all of which are written down. -/
def watched (faults : Nat → Option DatabaseError) : Database Watched :=
  (database.faulty faults).recorded

namespace Watched

/-- The property holds if no call has changed the table of the lock or the transaction by SQL. -/
abbrev Unless (holds : State → Prop) : Watched → Prop :=
  Database.IfAll (sparesTable lockTable · = true) fun state => holds state.1

/-- The lock is guarded, and held. -/
def Held (state : State) : Prop := state.Guarded ∧ state.connection.holdsLock = true

variable {faults : Nat → Option DatabaseError} {state : Watched}

/-- A call leads from what holds before it to what holds after it, whether it is made or fails. -/
theorem call_keeps {call : Database.Call} {before after : State → Prop}
    (made : ∀ state, sparesTable lockTable call = true → before state →
      after (State.perform call state).2)
    (failed : ∀ state, before state → after state) (start : Unless before state) :
    Unless after ((watched faults).perform call state).2 := by
  refine Database.recorded_keeps (fun spared holds => ?_) start
  rcases Database.faulty_cases call state.1 with ⟨error, fault⟩ | same
  · rw [fault]
    exact failed _ holds
  · rw [same]
    exact made _ spared holds

theorem lock_keeps (start : Unless State.Guarded state) :
    Unless State.Guarded ((watched faults).perform .lock state).2 :=
  call_keeps (fun _ _ guarded => State.lock_guarded guarded) (fun _ guarded => guarded) start

theorem lock_held (start : Unless State.Guarded state)
    (answered : ((watched faults).perform .lock state).1 = .ok ()) :
    Unless Held ((watched faults).perform .lock state).2 := by
  refine Database.recorded_keeps (fun _ guarded => ?_) start
  have same_answer : ((database.faulty faults).perform .lock state.1).1 = .ok () := answered
  rcases Database.faulty_cases Database.Call.lock state.1 with ⟨error, failed⟩ | same
  · rw [failed] at same_answer
    cases same_answer
  · rw [same] at same_answer ⊢
    exact ⟨State.lock_guarded guarded, State.lock_holds guarded same_answer⟩

theorem unlock_keeps (start : Unless Held state) :
    Unless State.Guarded ((watched faults).perform .unlock state).2 :=
  call_keeps (fun _ _ held => State.unlock_guarded held.1 held.2) (fun _ held => held.1) start

theorem batch_keeps {call : Database.Call} (kind : call.inBatch = true)
    (start : Unless Held state) : Unless Held ((watched faults).perform call state).2 :=
  call_keeps (fun _ spared held => State.perform_guarded held.1 held.2 kind spared)
    (fun _ held => held) start

/-- Calls that only show something keep the lock as it is. -/
theorem show_keeps {call : Database.Call} (data : call.isData = true)
    (start : Unless State.Guarded state) :
    Unless State.Guarded ((watched faults).perform call state).2 := by
  refine call_keeps (fun state spared guarded => ?_) (fun _ guarded => guarded) start
  exact guarded.spares (perform_spares guarded.alone logObject_other data spared)

end Watched

end Sqlite

namespace Session

open Sqlite (Watched watched)

/-- A text that is run in its surroundings, with automatic transactions or without. -/
structure Attempt where
  surroundings : Surroundings
  text : String
  autoTransaction : Bool

variable {State : Type}

/-- The session after a text has been run, whether that failed or not. -/
def attempt (database : Database State) (session : Session State) (attempt : Attempt) :
    Session State :=
  let session := session.withContext
    { session.context with autoTransaction := attempt.autoTransaction }
  (session.run database attempt.surroundings attempt.text).2

variable {faults : Nat → Option DatabaseError} {session : Session Watched}

/-- A session that makes no dry runs, whose lock is guarded. -/
structure Kept (session : Session Watched) : Prop where
  wet : session.context.dryRun = false
  faithful : session.context.queue.Faithful
  guarded : Watched.Unless Sqlite.State.Guarded session.database

theorem Kept.follows {may : Database.Call → Prop} {after : Session Watched}
    (shows : ∀ call, may call → call.isData = true) (kept : session.Kept)
    (follows : Follows (watched faults) may session after) : after.Kept where
  wet := follows.dryRun.trans kept.wet
  faithful := follows.faithful kept.faithful
  guarded := follows.reach.keeps (fun call _ made => Watched.show_keeps (shows call made))
    kept.guarded

theorem execute_kept (surroundings : Surroundings) (kept : session.Kept) :
    (session.execute (watched faults) surroundings).2.Kept := by
  cases effectful : session.context.queue.effectful with
  | false =>
      simp only [execute, effectful, Bool.false_and, Bool.false_eq_true, if_false]
      refine kept.follows ?_
        (runQueue_lists (watched faults) surroundings session kept.faithful effectful)
      rintro call (rfl | ⟨schema, kind, rfl⟩) <;> rfl
  | true =>
      simp only [execute, effectful, kept.wet, Bool.not_false, Bool.and_self, if_true]
      split <;> rename_i locked called <;>
        obtain ⟨answered, state, context⟩ := call_parts called
      · refine ⟨?_, Queue.empty_faithful, ?_⟩
        · exact (congrArg Context.dryRun context).trans kept.wet
        · have later : Watched.Unless Sqlite.State.Guarded
              ((watched faults).perform .lock session.database).2 :=
            Watched.lock_keeps kept.guarded
          rwa [state] at later
      · -- the row is there before the batch may open a transaction, and `unlock` may fail
        have held := Watched.lock_held kept.guarded answered
        rw [state] at held
        have follows := runQueue_follows (watched faults) surroundings locked
        have still := follows.reach.keeps
          (fun call _ inBatch => Watched.batch_keeps inBatch) held
        refine ⟨?_, ?_, ?_⟩
        · rw [release_context, follows.dryRun, context]
          exact kept.wet
        · rw [release_context]
          exact follows.faithful (by rw [context]; exact kept.faithful)
        · rw [release_database]
          exact Watched.unlock_keeps still

theorem attempt_kept (kept : session.Kept) (one : Attempt) :
    (session.attempt (watched faults) one).Kept := by
  have ready : (session.withContext
      { session.context with autoTransaction := one.autoTransaction }).Kept :=
    ⟨kept.wet, kept.faithful, kept.guarded⟩
  have follows := plan_follows (watched faults) (session.withContext
    { session.context with autoTransaction := one.autoTransaction }) (one.surroundings 0) one.text
  have planned := ready.follows (by rintro call rfl; rfl) follows
  unfold attempt run
  dsimp only
  split <;> rename_i ended <;> rw [ended] at planned
  · exact planned
  · exact execute_kept _ planned

theorem attempts_kept (attempts : List Attempt) (kept : session.Kept) :
    (attempts.foldl (attempt (watched faults)) session).Kept := by
  induction attempts generalizing session with
  | nil => exact kept
  | cons first rest ih => exact ih (attempt_kept kept first)

/-- A transaction is open, or the lock has not been given back. -/
def StillLocked (session : Session Watched) : Prop :=
  session.database.1.1.inTransaction = true ∨
    session.database.1.1.connection.holdsLock = true

instance (session : Session Watched) : Decidable session.StillLocked := by
  unfold StillLocked
  infer_instance

/-- A call that was answered has done what it does to the database; it is the last one on record. -/
theorem watched_call {call : Database.Call} {reply : call.Reply} {before after : Session Watched}
    (called : before.call (watched faults) call = (.ok reply, after)) :
    after.database.1.1 = (Sqlite.State.perform call before.database.1.1).2 ∧
      after.database.2 = before.database.2 ++ [call] := by
  obtain ⟨answered, state, -⟩ := call_parts called
  have answer : ((Sqlite.database.faulty faults).perform call before.database.1).1 = .ok reply :=
    answered
  rw [← state]
  exact ⟨Database.faulty_ok answer, rfl⟩

theorem close_idle {before after : Session Watched} {held : Bool}
    (called : before.call (watched faults) .close = (.ok (), after))
    (alone : before.database.1.1.Alone) (isOpen : before.database.1.1.connection.isOpen = true)
    (idle : before.database.1.1.inTransaction = false)
    (lock : before.database.1.1.visible.LockIs held) :
    ({ file := after.database.1.1.file } : Sqlite.State).Alone ∧
      after.database.1.1.file.contents.LockIs held := by
  obtain ⟨last, closed, file⟩ := Sqlite.State.close_idle isOpen idle
  have state : after.database.1.1 = last :=
    (watched_call called).1.trans (congrArg (·.2) closed)
  rw [state, file, ← Sqlite.State.visible_of_idle idle]
  exact ⟨alone.fresh idle, lock⟩

/-- Closing leaves the lock as it is, but for a transaction that restores it. -/
theorem close_lockIs {after : Session Watched} (kept : session.Kept)
    (closed : session.close (watched faults) = (.ok (), after))
    (spared : ∀ call ∈ after.database.2, Sqlite.sparesTable Sqlite.lockTable call = true) :
    ({ file := after.database.1.1.file } : Sqlite.State).Alone ∧
      after.database.1.1.file.contents.LockIs (decide session.StillLocked) := by
  have watches : (watched faults).inTransaction session.database =
      session.database.1.1.inTransaction := rfl
  unfold Session.close at closed
  dsimp only at closed
  split at closed <;> rename_i noted <;> rw [watches] at noted
  · split at closed <;> rename_i rolledBack
    · cases (Prod.mk.inj closed).1
    · split at closed <;> rename_i finished
      · cases (Prod.mk.inj closed).1
      · obtain ⟨-, rfl⟩ := Prod.mk.inj closed
        obtain ⟨state, calls⟩ := watched_call rolledBack
        obtain ⟨-, more⟩ := watched_call finished
        have guarded := kept.guarded fun call member => spared call (by
          rw [more, calls]
          exact List.mem_append_left _ (List.mem_append_left _ member))
        -- what is restored was saved while the lock was held
        obtain ⟨ended, rolled, across, visible⟩ :=
          Sqlite.State.rollback_across guarded.alone guarded.isOpen noted
        have same : _ = ended := state.trans (congrArg (·.2) rolled)
        have locked : decide session.StillLocked = true := by simp [StillLocked, noted]
        rw [locked]
        refine close_idle finished ?_ ?_ ?_ ?_ <;> rw [same]
        · exact across.alone
        · exact across.isOpen.trans guarded.isOpen
        · rw [across.inTransaction, noted]
          rfl
        · rw [visible]
          exact guarded.base noted
  · have idle : session.database.1.1.inTransaction = false := by simpa using noted
    split at closed <;> rename_i finished
    · cases (Prod.mk.inj closed).1
    · obtain ⟨-, rfl⟩ := Prod.mk.inj closed
      obtain ⟨-, calls⟩ := watched_call finished
      have guarded := kept.guarded fun call member => spared call (by
        rw [calls]
        exact List.mem_append_left _ member)
      have locked : decide session.StillLocked = session.database.1.1.connection.holdsLock := by
        simp [StillLocked, idle]
      rw [locked]
      exact close_idle finished guarded.alone guarded.isOpen idle guarded.lock

/-- A new session with explicit transactions, on a file that is empty. -/
def manual : Session Watched where
  context := { autoTransaction := false }
  sources := {
    drivers := [("file", Tree.ofLocation)]
    base := { scheme := "file", path := ".", fragment := none } }
  database := (({}, 0), [])

def calm : Nat → Option DatabaseError := fun _ => none

/-- A run that opens a transaction, in surroundings without files. -/
def beginning : Attempt := ⟨fun _ => {}, "begin", false⟩

def committing : Attempt := ⟨fun _ => {}, "commit", false⟩

end Session

end Rollout
