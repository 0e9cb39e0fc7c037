import Rollout.Proofs.Session.Failures
import Rollout.Proofs.Session.Uses

/-!
What dry runs tell of the runs to come. As long as nothing outside fails, how a run goes depends on
no more than the steps that wait and where it stands: on whether a transaction is open, and on how
deep it is in files of commands.
-/

namespace Rollout

/-- Where a run stands. -/
structure Standing where
  isOpen : Bool
  depth : Nat
deriving DecidableEq, Repr

def Context.standing (context : Context) : Standing := ⟨context.inTransaction, context.depth⟩

/-- Opens or closes the transaction. That is refused unless it is in the state that is wanted. -/
def Standing.switch (wanted : Bool) (error : TransactionError) (standing : Standing) :
    Except TransactionError Unit × Standing :=
  if standing.isOpen = wanted then (.ok (), { standing with isOpen := !wanted })
  else (.error error, standing)

/-- Where a step leads to. -/
def Step.advance : Step → Standing → Except TransactionError Unit × Standing
  | begin => Standing.switch false .alreadyOpen
  | commit | rollback => Standing.switch true .notOpen
  | step => fun standing => (.ok (), { standing with depth := step.depthFrom standing.depth })

/-- Where steps lead to, up to the first that is refused. -/
def Step.advanceAll : List Step → Standing → Except TransactionError Unit × Standing
  | [], standing => (.ok (), standing)
  | step :: rest, standing =>
      match step.advance standing with
      | (.error error, standing) => (.error error, standing)
      | (.ok (), standing) => advanceAll rest standing

/-- Where the end of a batch leads to. None with a transaction of its own leaves one open. -/
def Standing.closed (wrapped : Bool) (ran : Except TransactionError Unit × Standing) :
    Except TransactionError Unit × Standing :=
  if wrapped then
    let ended := Step.commit.advance ran.2
    (ran.1.bind fun () => ended.1, { ran.2 with isOpen := false })
  else ran

namespace Context

/-- Where the start of a run leads to. -/
def entry (context : Context) : Except TransactionError Unit × Standing :=
  let standing : Standing := ⟨context.inTransaction, 0⟩
  if context.isWrapped then Step.begin.advance standing else (.ok (), standing)

/-- How a run of what waits goes if nothing outside fails, whether it is a dry one or not. -/
def foretold (context : Context) : Except TransactionError Nat × Standing :=
  match context.entry with
  | (.error error, standing) => (.error error, standing)
  | (.ok (), standing) =>
      let ran := Standing.closed context.isWrapped
        (Step.advanceAll context.queue.steps standing)
      (ran.1.map fun () => context.queue.length, ran.2)

/-- The step of that number, counted from 0, is refused. -/
def RefusesAt (context : Context) (number : Nat) (error : TransactionError) : Prop :=
  ∃ start standing step after, context.entry = (.ok (), start) ∧
    Step.advanceAll (context.queue.steps.take number) start = (.ok (), standing) ∧
    context.queue.steps[number]? = some step ∧ step.advance standing = (.error error, after)

end Context

namespace Session

variable {State : Type}

/-- It goes as foretold, unless something outside fails. -/
inductive Foretold {Answer : Type} :
    Except RunError Answer × Session State → Except TransactionError Answer × Standing → Prop where
  | disturbed {failure : RunError} {after : Session State}
      {told : Except TransactionError Answer × Standing} (outside : failure.isOutside = true) :
      Foretold (.error failure, after) told
  | refused (error : TransactionError) (after : Session State) :
      Foretold (.error (.transaction error), after) (.error error, after.context.standing)
  | done (answer : Answer) (after : Session State) :
      Foretold (.ok answer, after) (.ok answer, after.context.standing)

section Steps

variable {database : Database State} {session : Session State}

theorem Switch.foretold {call : Database.Call} {wanted : Bool} {error : TransactionError}
    {result : Result State Unit} (switch : Switch database session call wanted result)
    (refuses : session.context.inTransaction ≠ wanted →
      result = (.error (.transaction error), session)) :
    Foretold result (session.context.standing.switch wanted error) := by
  have standing : session.context.standing.isOpen = session.context.inTransaction := rfl
  unfold Standing.switch
  rw [standing]
  by_cases ready : session.context.inTransaction = wanted
  · rw [if_pos ready]
    have moved {after : Session State}
        (context : after.context = { session.context with inTransaction := !wanted }) :
        Foretold (.ok (), after) (.ok (), ⟨!wanted, session.context.depth⟩) := by
      have done := Foretold.done () after
      rwa [context] at done
    cases switch with
    | refused _ other => exact absurd ready other
    | logged _ _ _ _ context => exact moved context
    | failed => exact .disturbed rfl
    | moved _ _ _ _ _ context => exact moved context
  · rw [if_neg ready, refuses ready]
    exact .refused error session

variable (database)

theorem begin_refused (isOpen : session.context.inTransaction ≠ false) :
    session.begin database = (.error (.transaction .alreadyOpen), session) := by
  unfold Session.begin
  rw [if_pos (by simpa using isOpen)]

theorem commit_refused (shut : session.context.inTransaction ≠ true) :
    session.commit database = (.error (.transaction .notOpen), session) := by
  unfold Session.commit
  rw [if_pos (by simpa using shut)]

theorem rollback_refused (shut : session.context.inTransaction ≠ true) :
    session.rollback database = (.error (.transaction .notOpen), session) := by
  unfold Session.rollback
  rw [if_pos (by simpa using shut)]

theorem begin_foretold :
    Foretold (session.begin database) (Step.begin.advance session.context.standing) :=
  (begin_switch database session).foretold (begin_refused database)

theorem commit_foretold :
    Foretold (session.commit database) (Step.commit.advance session.context.standing) :=
  (commit_switch database session).foretold (commit_refused database)

theorem rollback_foretold :
    Foretold (session.rollback database) (Step.rollback.advance session.context.standing) :=
  (rollback_switch database session).foretold (rollback_refused database)

/-- A step leads to where it is foretold to lead, unless something outside fails. -/
theorem runStep_foretold (world : World) (step : Step) :
    Foretold (session.runStep database world step) (step.advance session.context.standing) := by
  have plain (ordinary : step.isTransaction = false) :
      Foretold (session.runStep database world step)
        (.ok (), { session.context.standing with
          depth := step.depthFrom session.context.standing.depth }) := by
    have context := runStep_context database world session ordinary
    have fails := runStep_fails database world session ordinary
    rcases ran : session.runStep database world step with ⟨failure | answer, after⟩ <;>
      rw [ran] at context fails
    · exact .disturbed (fails _ rfl).isOutside
    · have done := Foretold.done () after
      rwa [context] at done
  cases step with
  | begin => exact begin_foretold database
  | commit => exact commit_foretold database
  | rollback => exact rollback_foretold database
  | _ => exact plain rfl

theorem runSteps_foretold (surroundings : Surroundings) (index : Nat) (steps : List Step) :
    Foretold (session.runSteps database surroundings index steps)
      (Step.advanceAll steps session.context.standing) := by
  induction steps generalizing session index with
  | nil => exact .done () session
  | cons step rest ih =>
      have next : Foretold (session.runStep database (surroundings index) step) _ :=
        runStep_foretold database (surroundings index) step
      rw [runSteps, Step.advanceAll]
      generalize session.runStep database (surroundings index) step = ran at next ⊢
      generalize step.advance session.context.standing = told at next ⊢
      cases next with
      | disturbed outside => exact .disturbed outside
      | refused error after => exact .refused error after
      | done answer after => exact ih (index + 1)

/-- However it ends, no transaction counts as open after a batch was given up. -/
theorem abort_standing (session : Session State) :
    (session.abort database).context.standing =
      { session.context.standing with isOpen := false } := by
  have switch := rollback_switch database session
  unfold abort
  split
  · rename_i isOpen
    generalize session.rollback database = rolled at switch ⊢
    cases switch with
    | refused _ other => exact absurd isOpen other
    | logged _ _ _ _ context => simp [Context.standing, context]
    | failed _ _ _ _ context => simp [Context.standing, Session.setTransaction, withContext, warn,
        Session.logged, context]
    | moved _ _ _ _ _ context => simp [Context.standing, context]
  · rename_i shut
    simp [Context.standing, shut]

theorem Foretold.map {Answer Other : Type} (change : Answer → Other)
    {ran : Except RunError Answer × Session State}
    {told : Except TransactionError Answer × Standing} (foretold : Foretold ran told) :
    Foretold (ran.1.map change, ran.2) (told.1.map change, told.2) := by
  cases foretold with
  | disturbed outside => exact .disturbed outside
  | refused error after => exact .refused error after
  | done answer after => exact .done (change answer) after

theorem Foretold.closed (wrapped : Bool) {ran : Result State Unit}
    {told : Except TransactionError Unit × Standing} (foretold : Foretold ran told) :
    Foretold (Session.closed database wrapped ran) (Standing.closed wrapped told) := by
  unfold Session.closed Standing.closed
  cases wrapped with
  | false => exact foretold
  | true =>
      rw [if_pos rfl, if_pos rfl]
      cases foretold with
      | disturbed outside => exact .disturbed outside
      | refused error after =>
          rw [← abort_standing database]
          exact .refused error _
      | done answer worked =>
          have ended : Foretold (worked.commit database)
              (worked.context.standing.switch true .notOpen) := commit_foretold database
          have standing : worked.context.standing.isOpen = worked.context.inTransaction := rfl
          dsimp only [Step.advance, Except.bind]
          unfold Standing.switch at ended ⊢
          by_cases isOpen : worked.context.inTransaction = true
          · rw [standing, if_pos isOpen] at ended ⊢
            rcases committed : worked.commit database with ⟨failure | done, after⟩ <;>
              rw [committed] at ended
            · cases ended with
              | disturbed outside => exact .disturbed outside
            · exact ended
          · -- a step has closed the transaction of the batch, so there is nothing to commit
            rw [commit_refused database isOpen, standing, if_neg isOpen, ← abort_standing database]
            exact .refused _ _

theorem started_foretold : Foretold (session.started database) session.context.entry := by
  rw [started_taken]
  unfold Context.entry
  cases session.context.isWrapped with
  | false => exact .done () _
  | true => exact begin_foretold database

theorem runQueue_foretold (surroundings : Surroundings) :
    Foretold (session.runQueue database surroundings) session.context.foretold := by
  have ready : Foretold (session.started database) _ := started_foretold database
  rw [runQueue_stages]
  unfold Context.foretold
  generalize session.started database = ran at ready ⊢
  generalize session.context.entry = told at ready ⊢
  cases ready with
  | disturbed outside => exact .disturbed outside
  | refused error after => exact .refused error after
  | done answer start =>
      exact ((runSteps_foretold database surroundings 0 _).closed database _).map _

end Steps

section Runs

variable {database : Database State} {surroundings : Surroundings} {session : Session State}

theorem Foretold.answered {locked : Bool} {ran : Result State Nat}
    {told : Except TransactionError Nat × Standing} (foretold : Foretold ran told)
    (undisturbed : Undisturbed (Session.answered database locked ran).1) :
    (Session.answered database locked ran).1 = told.1.mapError (.run ∘ .transaction) ∧
      (Session.answered database locked ran).2.context.standing = told.2 := by
  rw [answered_context]
  cases foretold with
  | disturbed outside =>
      have inside := undisturbed _ (answered_error _ _ _)
      rw [SessionError.isOutside, outside] at inside
      cases inside
  | refused error after => exact ⟨answered_error _ _ _, rfl⟩
  | done count after =>
      refine ⟨?_, rfl⟩
      rcases answered_ok database locked count after with done | ⟨error, failed, -⟩
      · exact done
      · cases undisturbed _ failed

/-- A run goes as foretold, unless something outside fails. -/
theorem execute_foretold
    (undisturbed : Undisturbed (session.execute database surroundings).1) :
    (session.execute database surroundings).1 =
        session.context.foretold.1.mapError (.run ∘ .transaction) ∧
      (session.execute database surroundings).2.context.standing = session.context.foretold.2 := by
  rw [execute_stages] at undisturbed ⊢
  rcases secured : session.secured database with ⟨error | _, held⟩ <;> rw [secured] at undisturbed
  · cases undisturbed _ rfl
  · rw [← secured_context secured]
    exact (runQueue_foretold database surroundings).answered undisturbed

theorem Foretold.told_done {Answer : Type} {answer : Answer} {after : Session State}
    {told : Except TransactionError Answer × Standing}
    (foretold : Foretold (.ok answer, after) told) :
    told = (.ok answer, after.context.standing) := by
  cases foretold
  rfl

theorem Foretold.told_failed {Answer : Type} {failure : RunError} {after : Session State}
    {told : Except TransactionError Answer × Standing}
    (foretold : Foretold (.error failure, after) told) (inside : failure.isOutside = false) :
    ∃ error, failure = .transaction error ∧ told = (.error error, after.context.standing) := by
  cases foretold with
  | disturbed outside =>
      rw [outside] at inside
      cases inside
  | refused error => exact ⟨error, rfl, rfl⟩

/-- If nothing outside fails, a run comes to its first step unless it is foretold not to. -/
theorem enters_foretold (undisturbed : Undisturbed (session.execute database surroundings).1)
    {standing : Standing} (entry : session.context.entry = (.ok (), standing)) :
    ∃ start, session.Enters database start ∧ start.context.standing = standing := by
  rw [execute_stages] at undisturbed
  rcases secured : session.secured database with ⟨error | _, held⟩ <;> rw [secured] at undisturbed
  · cases undisturbed _ rfl
  · have entered : Foretold (held.started database) _ := started_foretold database
    dsimp only at undisturbed
    rw [secured_context secured, entry] at entered
    rw [runQueue_stages] at undisturbed
    rcases ready : held.started database with ⟨failure | _, start⟩ <;> rw [ready] at entered
    · rw [ready] at undisturbed
      obtain ⟨_, -, told⟩ := entered.told_failed (undisturbed _ (answered_error _ _ _))
      cases told
    · exact ⟨start, ⟨held, secured, ready⟩, (Prod.mk.inj entered.told_done).2.symm⟩

/-- If nothing outside fails, the steps that fail are those that are foretold to be refused. -/
theorem failsAt_iff (undisturbed : Undisturbed (session.execute database surroundings).1)
    {number : Nat} {error : TransactionError} :
    session.FailsAt database surroundings number (.transaction error) ↔
      session.context.RefusesAt number error := by
  constructor
  · rintro ⟨stage, step, after, ⟨start, ⟨held, secured, ready⟩, before⟩, within, fails⟩
    have entered : Foretold (held.started database) _ := started_foretold database
    have went : Foretold (start.runSteps database surroundings 0 _) _ :=
      runSteps_foretold database surroundings 0 (session.context.queue.steps.take number)
    have stepped : Foretold (stage.runStep database (surroundings number) step) _ :=
      runStep_foretold database (surroundings number) step
    rw [ready, secured_context secured] at entered
    rw [before] at went
    rw [fails] at stepped
    obtain ⟨_, ⟨⟩, refused⟩ := stepped.told_failed rfl
    exact ⟨_, _, step, _, entered.told_done, went.told_done, within, refused⟩
  · rintro ⟨first, standing, step, last, entry, before, within, refused⟩
    have inside {number : Nat} {failure : RunError}
        (fails : session.FailsAt database surroundings number failure) :
        failure.isOutside = false := undisturbed _ fails.answer
    obtain ⟨start, enters, rfl⟩ := enters_foretold undisturbed entry
    -- a step that failed before would have been foretold to be refused
    have went : Foretold (start.runSteps database surroundings 0 _) _ :=
      runSteps_foretold database surroundings 0 (session.context.queue.steps.take number)
    rw [before] at went
    rcases ran : start.runSteps database surroundings 0
      (session.context.queue.steps.take number) with ⟨failure | _, stage⟩ <;> rw [ran] at went
    · obtain ⟨earlier, fails⟩ := enters.failsAt ran
      obtain ⟨_, -, told⟩ := went.told_failed (inside fails)
      cases told
    · have stepped : Foretold (stage.runStep database (surroundings number) step) _ :=
        runStep_foretold database (surroundings number) step
      rw [← (Prod.mk.inj went.told_done).2, refused] at stepped
      rcases fails : stage.runStep database (surroundings number) step with ⟨failure | _, after⟩ <;>
        rw [fails] at stepped
      · have failsAt : session.FailsAt database surroundings number failure :=
          ⟨stage, step, after, ⟨start, enters, ran⟩, within, fails⟩
        obtain ⟨_, rfl, told⟩ := stepped.told_failed (inside failsAt)
        cases told
        exact failsAt
      · cases stepped.told_done

end Runs

/-- The session in dry runs, or outside of them. -/
def inMode (dry : Bool) (session : Session State) : Session State :=
  session.withContext { session.context with dryRun := dry }

section Planning

variable (database : Database State) (world : World) (dry : Bool) {session : Session State}

theorem planCommand_inMode (command : Command) :
    (session.inMode dry).planCommand database world command =
      let planned := session.planCommand database world command
      (planned.1, planned.2.inMode dry) := by
  have opened : (session.inMode dry).tree world command.ref =
      ((session.tree world command.ref).1, (session.tree world command.ref).2.inMode dry) := rfl
  unfold planCommand
  rw [opened]
  rcases session.tree world command.ref with ⟨error | tree, after⟩
  · rfl
  · dsimp only
    have asked : (after.inMode dry).database = after.database := rfl
    have automatic : (after.inMode dry).context.autoTransaction = after.context.autoTransaction :=
      rfl
    have taken (plan : Plan) : (after.inMode dry).context.takePlan plan =
        ((after.context.takePlan plan).1,
          { (after.context.takePlan plan).2 with dryRun := dry }) := by
      unfold Context.takePlan
      cases plan.outcome <;> rfl
    rw [asked, automatic, taken]
    rfl

theorem planCommands_inMode (commands : List Command) :
    (session.inMode dry).planCommands database world commands =
      let planned := session.planCommands database world commands
      (planned.1, planned.2.inMode dry) := by
  induction commands generalizing session with
  | nil => rfl
  | cons command rest ih =>
      rw [planCommands, planCommands, planCommand_inMode]
      rcases session.planCommand database world command with ⟨error | count, after⟩
      · rfl
      · dsimp only
        rw [ih]

/-- Planning goes the same way for dry runs and for others. -/
theorem plan_inMode (text : String) :
    (session.inMode dry).plan database world text =
      let planned := session.plan database world text
      (planned.1, planned.2.inMode dry) := by
  unfold plan
  cases Command.parse Grammar.builtin text with
  | error error => rfl
  | ok commands =>
      dsimp only
      rw [planCommands_inMode]
      rcases session.planCommands database world commands with ⟨error | count, after⟩ <;> rfl

end Planning

/-- A text is planned in the same way for a dry run as for another, and what waits is run in the
same way: as long as no call, source, program or write fails, both answer the same and leave a
transaction open, or files of commands entered, in the same number, and if a step is refused in one
of them, it is refused in the other for the same reason. Neither fails otherwise unless something
that it needs does. -/
theorem dryRun_predicts (database : Database State) (session : Session State) :
    (∀ world text, (session.inMode true).plan database world text =
      let planned := (session.inMode false).plan database world text
      (planned.1, planned.2.inMode true)) ∧
    (∀ surroundings others,
      let real := (session.inMode false).execute database surroundings
      let dry := (session.inMode true).execute database others
      Undisturbed real.1 → Undisturbed dry.1 →
        dry.1 = real.1 ∧ dry.2.context.inTransaction = real.2.context.inTransaction ∧
        dry.2.context.depth = real.2.context.depth ∧
        ∀ number error,
          (session.inMode true).FailsAt database others number (.transaction error) ↔
            (session.inMode false).FailsAt database surroundings number (.transaction error)) ∧
    ∀ mode surroundings failure,
      ((session.inMode mode).execute database surroundings).1 = .error failure →
        (session.inMode mode).Failed database surroundings failure := by
  refine ⟨?_, ?_, fun mode surroundings failure => execute_error⟩
  · intro world text
    have planned : ((session.inMode false).inMode true).plan database world text = _ :=
      plan_inMode database world true text
    exact planned
  · intro surroundings others real dry smooth dryly
    obtain ⟨answer, standing⟩ := execute_foretold smooth
    obtain ⟨dryAnswer, dryStanding⟩ := execute_foretold dryly
    have same : dry.2.context.standing = real.2.context.standing :=
      dryStanding.trans standing.symm
    refine ⟨dryAnswer.trans answer.symm, congrArg Standing.isOpen same,
      congrArg Standing.depth same, ?_⟩
    intro number error
    exact (failsAt_iff dryly).trans (failsAt_iff smooth).symm

/-- A session in which a transaction is to be opened again before it is closed. -/
def reopening : Session Database.Journal where
  context :=
    { autoTransaction := false
      queue := Queue.append {} [.begin, .execScript "select 1", .begin, .commit] }
  sources := { drivers := [], base := { scheme := "file", path := ".", fragment := none } }
  database := {}

theorem dryRun_predicts_reopened :
    let dry := (reopening.inMode true).execute Database.Journal.database fun _ => {}
    dry.1 = .error (.run (.transaction .alreadyOpen)) ∧ dry.2.context.inTransaction = true ∧
      (reopening.inMode true).FailsAt Database.Journal.database (fun _ => {}) 2
        (.transaction .alreadyOpen) := by
  obtain ⟨-, predicts, -⟩ := dryRun_predicts Database.Journal.database reopening
  have went (mode : Bool) :
      ((reopening.inMode mode).execute Database.Journal.database fun _ => {}).1 =
        .error (.run (.transaction .alreadyOpen)) := by
    revert mode
    decide +kernel
  have smooth (mode : Bool) : Undisturbed
      ((reopening.inMode mode).execute Database.Journal.database fun _ => {}).1 := by
    rintro _ failed
    cases (went mode).symm.trans failed
    rfl
  obtain ⟨answer, isOpen, -, refused⟩ :=
    predicts (fun _ => {}) (fun _ => {}) (smooth false) (smooth true)
  refine ⟨answer.trans (went false), isOpen.trans (by decide +kernel), (refused 2 _).mpr ?_⟩
  exact (failsAt_iff (smooth false)).mpr
    ⟨⟨false, 0⟩, ⟨true, 0⟩, .begin, ⟨true, 0⟩, rfl, rfl, rfl, rfl⟩

end Session

end Rollout
