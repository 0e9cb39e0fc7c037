import Rollout.Proofs.Database.Flagged
import Rollout.Proofs.Session.Stages
import Rollout.Proofs.Session.Uses

/-!
A session notes whether a transaction is open, and so does its database. The two agree after every
use, unless a run could not roll back the transaction that it gave up on.
-/

namespace Rollout.Session

variable {State : Type}

section Aborts

variable (database : Database State) (surroundings : Surroundings) (session : Session State)

/-- The run gives up in the second session: a step has failed, or the commit at the end. -/
inductive GivesUp : Session State → Prop where
  | step {start stopped : Session State} {failure : RunError}
      (enters : session.Enters database start)
      (failed : start.runSteps database surroundings 0 session.context.queue.steps =
        (.error failure, stopped)) : GivesUp stopped
  | commit {start worked stopped : Session State} {failure : RunError}
      (enters : session.Enters database start)
      (ran : start.runSteps database surroundings 0 session.context.queue.steps = (.ok (), worked))
      (failed : worked.commit database = (.error failure, stopped)) : GivesUp stopped

/-- The run gives up on a transaction of its own, and the database fails to roll it back. -/
def AbortFails : Prop :=
  session.context.isWrapped = true ∧ ∃ stopped error,
    session.GivesUp database surroundings stopped ∧ stopped.context.inTransaction = true ∧
      (database.perform .rollback stopped.database).1 = .error error

end Aborts

/-- Outside of dry runs, session and database agree whether a transaction is open. -/
structure InStep (database : Database State) (session : Session State) : Prop where
  wet : session.context.dryRun = false
  agrees : session.context.inTransaction = database.inTransaction session.database

variable {database : Database State} (flagged : database.Flagged) {surroundings : Surroundings}
  {session after : Session State}

include flagged

theorem InStep.ofActs {may : Database.Call → Prop} (acts : Acts database may session after)
    (data : ∀ call, may call → call.isData = true) (inStep : session.InStep database) :
    after.InStep database := by
  have same := flagged.reach_keeps
    (fun call made => Database.Call.isSwitch_of_isData (data call made)) acts.reach
  constructor
  · exact acts.dryRun.trans inStep.wet
  · rw [acts.steady data, inStep.agrees, same]

/-- A call that does not switch transactions, after which only the database is another. -/
theorem InStep.ofCall {call : Database.Call} {answer : Except DatabaseError call.Reply}
    (other : call.isSwitch = false) (called : session.call database call = (answer, after))
    (inStep : session.InStep database) : after.InStep database := by
  obtain ⟨-, state, context⟩ := call_parts called
  constructor
  · rw [context]
    exact inStep.wet
  · rw [context, ← state, flagged.perform_keeps other]
    exact inStep.agrees

theorem Switch.inStep {call : Database.Call} {wanted : Bool} {result : Result State Unit}
    (moves : ∀ {state reply next}, database.perform call state = (.ok reply, next) →
      database.inTransaction next = !wanted)
    (inStep : session.InStep database)
    (switch : Switch database session call wanted result) : result.2.InStep database := by
  cases switch with
  | refused => exact inStep
  | logged _ _ dry =>
      rw [inStep.wet] at dry
      cases dry
  | failed error last ready called context =>
      constructor
      · rw [context]
        exact inStep.wet
      · rw [context, flagged.fails called]
        exact inStep.agrees
  | moved reply last ready wet called context =>
      constructor
      · rw [context]
        exact inStep.wet
      · rw [context]
        exact (moves called).symm

theorem begin_inStep (inStep : session.InStep database) :
    (session.begin database).2.InStep database :=
  (begin_switch database session).inStep flagged flagged.begins inStep

theorem commit_inStep (inStep : session.InStep database) :
    (session.commit database).2.InStep database :=
  (commit_switch database session).inStep flagged flagged.commits inStep

theorem rollback_inStep (inStep : session.InStep database) :
    (session.rollback database).2.InStep database :=
  (rollback_switch database session).inStep flagged flagged.rollsBack inStep

theorem runStep_inStep (world : World) (step : Step) (inStep : session.InStep database) :
    (session.runStep database world step).2.InStep database := by
  by_cases transaction : step.isTransaction = true
  · cases step with
    | begin => exact begin_inStep flagged inStep
    | commit => exact commit_inStep flagged inStep
    | rollback => exact rollback_inStep flagged inStep
    | _ => cases transaction
  · have ordinary : step.isTransaction = false := by simpa using transaction
    exact inStep.ofActs flagged (runStep_acts database world session step)
      fun call => Step.mayCall_isData ordinary

theorem runSteps_inStep (surroundings : Surroundings) (index : Nat) (steps : List Step)
    (inStep : session.InStep database) :
    (session.runSteps database surroundings index steps).2.InStep database := by
  induction steps generalizing session index with
  | nil => exact inStep
  | cons step rest ih =>
      have next := runStep_inStep flagged (surroundings index) step inStep
      rw [runSteps]
      split <;> rename_i ran <;> rw [ran] at next
      · exact next
      · exact ih (index + 1) next

theorem started_inStep (inStep : session.InStep database) :
    (session.started database).2.InStep database := by
  have taken : session.taken.InStep database := ⟨inStep.wet, inStep.agrees⟩
  rw [started_taken]
  split
  · exact begin_inStep flagged taken
  · exact taken

theorem secured_inStep {result : Except DatabaseError Unit} (inStep : session.InStep database)
    (secured : session.secured database = (result, after)) : after.InStep database := by
  unfold Session.secured at secured
  split at secured
  · exact inStep.ofCall flagged rfl secured
  · obtain ⟨-, rfl⟩ := Prod.mk.inj secured
    exact inStep

theorem Enters.inStep (enters : session.Enters database after) (inStep : session.InStep database) :
    after.InStep database := by
  obtain ⟨held, secured, ready⟩ := enters
  have started := started_inStep flagged (secured_inStep flagged inStep secured)
  rwa [ready] at started

theorem Stage.inStep {number : Nat} (stage : session.Stage database surroundings number after)
    (inStep : session.InStep database) : after.InStep database := by
  obtain ⟨start, enters, ran⟩ := stage
  have reached := runSteps_inStep flagged surroundings 0
    (session.context.queue.steps.take number) (enters.inStep flagged inStep)
  rwa [ran] at reached

/-- Giving up closes the transaction on both sides, unless the database fails to roll it back. -/
theorem abort_inStep (inStep : session.InStep database) :
    (session.abort database).InStep database ∨
      session.context.inTransaction = true ∧
        ∃ error, (database.perform .rollback session.database).1 = .error error := by
  have switch := rollback_switch database session
  have rolled := rollback_inStep flagged inStep
  unfold abort
  by_cases noted : session.context.inTransaction = true
  · rw [if_pos noted]
    rcases ended : session.rollback database with ⟨_ | _, last⟩ <;> rw [ended] at switch rolled
    · cases switch with
      | refused error other => exact absurd noted other
      | failed error last ready called => exact .inr ⟨noted, error, by rw [called]⟩
    · exact .inl rolled
  · rw [if_neg noted]
    exact .inl inStep

theorem GivesUp.inStep (givesUp : session.GivesUp database surroundings after)
    (inStep : session.InStep database) : after.InStep database := by
  cases givesUp with
  | step enters failed =>
      have reached := runSteps_inStep flagged surroundings 0
        session.context.queue.steps (enters.inStep flagged inStep)
      rwa [failed] at reached
  | commit enters ran failed =>
      have reached := runSteps_inStep flagged surroundings 0
        session.context.queue.steps (enters.inStep flagged inStep)
      rw [ran] at reached
      have committed := commit_inStep flagged reached
      rwa [failed] at committed

theorem GivesUp.abort_inStep (givesUp : session.GivesUp database surroundings after)
    (wrapped : session.context.isWrapped = true) (inStep : session.InStep database) :
    (after.abort database).InStep database ∨ session.AbortFails database surroundings := by
  rcases Session.abort_inStep flagged (givesUp.inStep flagged inStep) with held | ⟨noted, error, fails⟩
  · exact .inl held
  · exact .inr ⟨wrapped, after, error, givesUp, noted, fails⟩

theorem batch_inStep {start : Session State} (enters : session.Enters database start)
    (inStep : session.InStep database) :
    (batch database surroundings session.context start).2.InStep database ∨
      session.AbortFails database surroundings := by
  have ended := runSteps_inStep flagged surroundings 0
    session.context.queue.steps (enters.inStep flagged inStep)
  dsimp only [batch]
  unfold closed
  rcases ran : start.runSteps database surroundings 0 session.context.queue.steps
    with ⟨_ | _, worked⟩ <;> rw [ran] at ended
  · by_cases wrapped : session.context.isWrapped = true
    · rw [if_pos wrapped]
      exact (GivesUp.step enters ran).abort_inStep flagged wrapped inStep
    · rw [if_neg wrapped]
      exact .inl ended
  · by_cases wrapped : session.context.isWrapped = true
    · rw [if_pos wrapped]
      dsimp only
      have committed := commit_inStep flagged ended
      rcases last : worked.commit database with ⟨_ | _, stopped⟩ <;> rw [last] at committed
      · exact (GivesUp.commit enters ran last).abort_inStep flagged wrapped inStep
      · exact .inl committed
    · rw [if_neg wrapped]
      exact .inl ended

theorem answered_inStep (locked : Bool) (ran : Result State Nat) (inStep : ran.2.InStep database) :
    (answered database locked ran).2.InStep database := by
  constructor
  · rw [answered_context]
    exact inStep.wet
  · rw [answered_context, answered_database]
    split
    · rw [flagged.perform_keeps rfl]
      exact inStep.agrees
    · exact inStep.agrees

theorem execute_inStep (surroundings : Surroundings) (inStep : session.InStep database) :
    (session.execute database surroundings).2.InStep database ∨
      session.AbortFails database surroundings := by
  have executed := execute_executed database surroundings session
  generalize session.execute database surroundings = result at executed ⊢
  cases executed with
  | @notSecured error held refused =>
      have locked := secured_inStep flagged inStep refused
      exact .inl ⟨locked.wet, locked.agrees⟩
  | @notStarted held last failure secured refused =>
      have started := started_inStep flagged (secured_inStep flagged inStep secured)
      rw [refused] at started
      exact .inl (answered_inStep flagged _ _ started)
  | entered enters =>
      exact (batch_inStep flagged enters inStep).imp_left (answered_inStep flagged _ _)

theorem plan_inStep (world : World) (text : String) (inStep : session.InStep database) :
    (session.plan database world text).2.InStep database := by
  have follows := plan_follows database session world text
  obtain ⟨queue, attempted, context⟩ := plan_context database session world text
  constructor
  · exact follows.dryRun.trans inStep.wet
  · rw [context, flagged.reach_keeps (by rintro call rfl; rfl) follows.reach]
    exact inStep.agrees

/-- Some run in the sequence could not roll back the transaction that it gave up on. -/
def AnyAbortFails (database : Database State) (session : Session State) (uses : List Use) : Prop :=
  ∃ earlier surroundings later, uses = earlier ++ .execute surroundings :: later ∧
    (session.useAll database earlier).AbortFails database surroundings

theorem useAll_inStep (uses : List Use) (inStep : session.InStep database) :
    (session.useAll database uses).InStep database ∨ session.AnyAbortFails database uses := by
  induction uses generalizing session with
  | nil => exact .inl inStep
  | cons use rest ih =>
      have next : (session.use database use).InStep database ∨
          ∃ surroundings, use = .execute surroundings ∧
            session.AbortFails database surroundings := by
        cases use with
        | plan world text => exact .inl (plan_inStep flagged world text inStep)
        | execute surroundings =>
            exact (execute_inStep flagged surroundings inStep).imp_right fun fails =>
              ⟨surroundings, rfl, fails⟩
      rcases next with held | ⟨surroundings, rfl, fails⟩
      · rcases ih held with last | ⟨earlier, surroundings, later, rfl, fails⟩
        · exact .inl last
        · exact .inr ⟨use :: earlier, surroundings, later, rfl, fails⟩
      · exact .inr ⟨[], surroundings, rest, rfl, fails⟩

/-- After any uses of a session, it and its database agree whether a transaction is open, unless one
of the runs could not roll back the transaction that it gave up on. Where transactions are opened
explicitly, a step that fails while one is open leaves it open on both sides. -/
theorem transaction_agrees (session : Session State) (wet : session.context.dryRun = false)
    (closed : session.context.inTransaction = false)
    (shut : database.inTransaction session.database = false) (uses : List Use) :
    ((session.useAll database uses).context.inTransaction =
        database.inTransaction (session.useAll database uses).database ∨
      session.AnyAbortFails database uses) ∧
    (session.context.autoTransaction = false → ∀ surroundings number stage step failure stopped,
      (session.useAll database uses).Stage database surroundings number stage →
      (session.useAll database uses).context.queue.steps[number]? = some step →
      stage.runStep database (surroundings number) step = (.error failure, stopped) →
      stage.context.inTransaction = true →
        let ran := (session.useAll database uses).execute database surroundings
        ran.1 = .error (.run failure) ∧ ran.2.context.inTransaction = true ∧
          database.inTransaction ran.2.database = true) := by
  have start : session.InStep database := ⟨wet, closed.trans shut.symm⟩
  refine ⟨(useAll_inStep flagged uses start).imp_left InStep.agrees, ?_⟩
  intro manual surroundings number stage step failure stopped reached within fails isOpen
  -- explicit transactions are never rolled back by a run that gives up
  have never : ∀ uses, ¬ session.AnyAbortFails database uses := by
    rintro _ ⟨earlier, surroundings, later, rfl, wrapped, -⟩
    have mode := (useAll_settings database session earlier).autoTransaction
    simp [Context.isWrapped, mode, manual] at wrapped
  have unwrapped : (session.useAll database uses).context.isWrapped = false := by
    simp [Context.isWrapped, (useAll_settings database session uses).autoTransaction, manual]
  have current := (useAll_inStep flagged uses start).resolve_right (never uses)
  have ended : stopped.InStep database := by
    have ran := runStep_inStep flagged (surroundings number) step (reached.inStep flagged current)
    rwa [fails] at ran
  have same : stopped.context.inTransaction = true := by
    rw [runStep_error fails]
    exact isOpen
  have went := execute_failed reached within fails
  rw [if_neg (by simp [unwrapped])] at went
  have last := answered_inStep flagged (session.useAll database uses).needsLock
    (.error failure, stopped) ended
  have noted : (answered database (session.useAll database uses).needsLock
      (.error failure, stopped)).2.context.inTransaction = true := by
    rw [answered_context]
    exact same
  dsimp only
  rw [went]
  exact ⟨answered_error _ _ _, noted, last.agrees.symm.trans noted⟩

/-- A database of which one call fails, the seventh. -/
def stumbling : Database (Database.Journal × Nat) :=
  Database.Journal.database.faulty fun number => if number = 6 then some (.driver "gone") else none

/-- A session with explicit transactions, on an empty folder. -/
def explicit : Session (Database.Journal × Nat) where
  context := { autoTransaction := false }
  sources := {
    drivers := [("file", Tree.ofLocation)]
    base := { scheme := "file", path := ".", fragment := none } }
  database := ({}, 0)

/-- A transaction is opened in one run, and a script is planned for the next. -/
def opening : List Use :=
  [.plan {} "begin", .execute fun _ => {}, .plan {} "sql \x60select 1\x60"]

/-- The next run when it holds the lock. -/
def resumed : Session (Database.Journal × Nat) :=
  ((explicit.useAll stumbling opening).secured stumbling).2

/-- It comes to the script, the call of which fails. -/
def audited : Session (Database.Journal × Nat) :=
  ((resumed.started stumbling).2.runSteps stumbling (fun _ => {}) 0
    ((explicit.useAll stumbling opening).context.queue.steps.take 1)).2

omit flagged in
theorem transaction_agrees_opened :
    let ran := (explicit.useAll stumbling opening).execute stumbling fun _ => {}
    ran.1 = .error (.run (.sql "sql script" (.driver "gone"))) ∧
      ran.2.context.inTransaction = true ∧ stumbling.inTransaction ran.2.database = true := by
  obtain ⟨-, keeps⟩ := transaction_agrees
    (Database.Journal.flagged.faulty _ : stumbling.Flagged) explicit rfl rfl rfl opening
  have reached : (explicit.useAll stumbling opening).Stage stumbling (fun _ => {}) 1 audited := by
    refine ⟨(resumed.started stumbling).2, ⟨resumed, ?_, ?_⟩, ?_⟩
    · exact Prod.ext (by decide +kernel) rfl
    · exact Prod.ext (by decide +kernel) rfl
    · exact Prod.ext (by decide +kernel) rfl
  refine keeps rfl (fun _ => {}) 1 audited (.execScript "select 1") _ _ reached
    (by decide +kernel) (Prod.ext (by decide +kernel) rfl) (by decide +kernel)

end Rollout.Session
