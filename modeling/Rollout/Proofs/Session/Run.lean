import Rollout.Proofs.Queue
import Rollout.Proofs.Session.Context
import Rollout.Session.Plan

/-!
What planning and running do to the session as a whole: the calls that can reach the database, and
what becomes of the queue. Whatever is planned, run or set in between, the note on effects that the
queue keeps stays true in every state that a session can come to.
-/

namespace Rollout

theorem Step.mayCall_inBatch {step : Step} {call : Database.Call} (made : step.mayCall call) :
    call.inBatch = true := by
  cases step
  case begin => rw [show call = .begin from made]; rfl
  case commit => rw [show call = .commit from made]; rfl
  case rollback => rw [show call = .rollback from made]; rfl
  all_goals exact Database.Call.inBatch_of_isData (Step.mayCall_isData rfl made)

namespace Session

variable {State : Type} (database : Database State) (surroundings : Surroundings)
  (session : Session State)

/-- Calls of batches, on which nothing depends but the database and the place in a run. -/
abbrev ActsInBatch (before after : Session State) : Prop :=
  Acts database (·.inBatch = true) before after

theorem runSteps_inBatch (index : Nat) (steps : List Step) :
    ActsInBatch database session (session.runSteps database surroundings index steps).2 := by
  refine (runSteps_acts database session surroundings index steps).mono ?_
  rintro call ⟨step, -, made⟩
  exact Step.mayCall_inBatch made

theorem Switch.inBatch {call : Database.Call} {wanted : Bool} (management : call.isData = false)
    (batch : call.inBatch = true) {result : Result State Unit}
    (switch : Switch database session call wanted result) :
    ActsInBatch database session result.2 :=
  (switch.acts database session management).mono (by rintro _ rfl; exact batch)

theorem abort_inBatch : ActsInBatch database session (session.abort database) := by
  have switched := (rollback_switch database session).inBatch database session rfl rfl
  unfold abort
  split
  · split <;> rename_i ended <;> rw [ended] at switched
    · exact switched
    · refine ⟨switched.reach, ?_, fun data => ?_⟩
      · simp only [setTransaction, withContext, warn, logged]
        rw [switched.context]
      · exact absurd (data .begin rfl) (by decide)
  · exact .refl _

theorem runWrapped_inBatch (steps : List Step) :
    ActsInBatch database session (session.runWrapped database surroundings steps).2 := by
  have began := (begin_switch database session).inBatch database session rfl rfl
  unfold runWrapped
  split <;> rename_i opened <;> rw [opened] at began
  · exact began
  · rename_i started
    have worked := began.trans (runSteps_inBatch database surroundings started 0 steps)
    split <;> rename_i ran <;> rw [ran] at worked
    · exact worked.trans (abort_inBatch database _)
    · rename_i finished
      have committed := worked.trans
        ((commit_switch database finished).inBatch database finished rfl rfl)
      split <;> rename_i ended <;> rw [ended] at committed
      · exact committed.trans (abort_inBatch database _)
      · exact committed

/-- The second session follows from the first by calls that may be made; dry runs stay dry runs,
and the queue tells the truth. -/
structure Follows (may : Database.Call → Prop) (before after : Session State) : Prop where
  reach : database.Reach may before.database after.database
  dryRun : after.context.dryRun = before.context.dryRun
  faithful : before.context.queue.Faithful → after.context.queue.Faithful

namespace Follows

variable {database : Database State} {may : Database.Call → Prop}
  {first second third : Session State}

theorem refl (session : Session State) : Follows database may session session :=
  ⟨.refl _, rfl, id⟩

theorem trans (start : Follows database may first second)
    (rest : Follows database may second third) : Follows database may first third :=
  ⟨start.reach.trans rest.reach, rest.dryRun.trans start.dryRun, rest.faithful ∘ start.faithful⟩

theorem ofActs (acts : Acts database may first second) : Follows database may first second :=
  ⟨acts.reach, acts.dryRun, fun faithful => by rwa [acts.queue]⟩

end Follows

theorem runQueue_follows :
    Follows database (·.inBatch = true) session (session.runQueue database surroundings).2 := by
  have emptied : Follows database (·.inBatch = true) session
      (session.withContext { session.context.emptied with depth := 0 }) :=
    ⟨.refl _, rfl, fun _ => Queue.empty_faithful⟩
  unfold runQueue
  dsimp only
  split
  · exact emptied.trans (.ofActs (runWrapped_inBatch database surroundings _ _))
  · exact emptied.trans (.ofActs (runSteps_inBatch database surroundings _ 0 _))

/-- A batch without effects shows what the database holds. -/
theorem runQueue_lists (faithful : session.context.queue.Faithful)
    (quiet : session.context.queue.effectful = false) :
    Follows database
      (fun call => call = .foreignKeys ∨ ∃ schema kind, call = .schemaItems schema kind)
      session (session.runQueue database surroundings).2 := by
  have lists : ∀ step ∈ session.context.queue.steps, step.isList = true := by
    rw [faithful, List.any_eq_false] at quiet
    intro step member
    simpa [Step.hasEffects] using quiet step member
  have acts := runSteps_acts database
    (session.withContext { session.context.emptied with depth := 0 }) surroundings 0
    session.context.queue.steps
  unfold runQueue
  simp only [quiet, Bool.and_false, Bool.false_eq_true, if_false]
  refine ⟨acts.reach.mono ?_, acts.dryRun, fun _ => ?_⟩
  · rintro call ⟨step, member, made⟩
    have isList := lists step member
    cases step <;> first | exact made | cases isList
  · rw [acts.queue]
    exact Queue.empty_faithful

theorem settle_reach (outcome : Except PlanError Unit) (events : List Draft.Event) (state : State) :
    database.Reach (· = .schemaNames) state
      (Plan.settle (some database) outcome events state).2 := by
  induction events generalizing state with
  | nil => exact .refl _
  | cons event rest ih =>
      cases event with
      | tried pattern => exact ih state
      | step step => exact ih state
      | listing kind command =>
          have asked : database.Reach (· = .schemaNames) state
              (database.perform .schemaNames state).2 := .single _ rfl
          unfold Plan.settle
          dsimp only
          split <;> rename_i performed <;> rw [performed] at asked
          · exact asked
          · exact asked.trans (ih _)

theorem planCommand_follows (world : World) (command : Command) :
    Follows database (· = .schemaNames) session
      (session.planCommand database world command).2 := by
  unfold planCommand
  split <;> rename_i opened <;> obtain ⟨-, rfl⟩ := Prod.mk.inj opened
  · exact ⟨.refl _, rfl, id⟩
  · refine ⟨settle_reach database _ _ _, ?_, fun faithful => ?_⟩
    · unfold Context.takePlan
      dsimp only
      split <;> rfl
    · unfold Context.takePlan
      dsimp only
      split
      · exact faithful
      · exact Queue.append_faithful _ _ faithful

theorem planCommands_follows (world : World) (commands : List Command) :
    Follows database (· = .schemaNames) session
      (session.planCommands database world commands).2 := by
  induction commands generalizing session with
  | nil => exact .refl _
  | cons command rest ih =>
      have first := planCommand_follows database session world command
      unfold planCommands
      split <;> rename_i planned <;> rw [planned] at first
      · exact first
      · exact first.trans (ih _)

theorem plan_follows (world : World) (text : String) :
    Follows database (· = .schemaNames) session (session.plan database world text).2 := by
  unfold plan
  split
  · exact .refl _
  · rename_i commands _
    have planned := planCommands_follows database session world commands
    dsimp only
    split <;> rename_i ended <;> rw [ended] at planned
    · exact planned
    · exact ⟨planned.reach, planned.dryRun, fun _ => Queue.truncate_faithful _ _⟩

end Session

end Rollout

namespace Rollout.Session

variable {State : Type}

theorem runQueue_queue (database : Database State) (surroundings : Surroundings)
    (session : Session State) :
    (session.runQueue database surroundings).2.context.queue = {} := by
  unfold runQueue
  dsimp only
  split
  · exact (runWrapped_inBatch database surroundings _ _).queue
  · exact (runSteps_inBatch database surroundings _ 0 _).queue

/-- Nothing waits after a run, however it went. -/
theorem execute_queue (database : Database State) (surroundings : Surroundings)
    (session : Session State) :
    (session.execute database surroundings).2.context.queue = {} := by
  unfold execute
  split
  · split
    · rfl
    · rw [release_context]
      exact runQueue_queue database surroundings _
  · exact runQueue_queue database surroundings session

/-- A session that was opened with nothing in its queue, after any uses of it. Of its context all
but the queue can be set at will; steps can be added to the queue, cut off its end or taken out. -/
inductive Reachable (database : Database State) : Session State → Prop where
  | opened (session : Session State) (nothing : session.context.queue = {}) :
      Reachable database session
  | planned {session : Session State} (world : World) (text : String)
      (earlier : Reachable database session) :
      Reachable database (session.plan database world text).2
  | executed {session : Session State} (surroundings : Surroundings)
      (earlier : Reachable database session) :
      Reachable database (session.execute database surroundings).2
  | extended {session : Session State} (steps : List Step) (earlier : Reachable database session) :
      Reachable database (session.withContext (session.context.extend steps))
  | truncated {session : Session State} (length : Nat) (earlier : Reachable database session) :
      Reachable database (session.withContext (session.context.truncate length))
  | emptied {session : Session State} (earlier : Reachable database session) :
      Reachable database (session.withContext session.context.emptied)
  | changed {session : Session State} (context : Context)
      (same : context.queue = session.context.queue) (earlier : Reachable database session) :
      Reachable database (session.withContext context)
  | called {session : Session State} (state : State) (earlier : Reachable database session) :
      Reachable database { session with database := state }

theorem Reachable.faithful {database : Database State} {session : Session State}
    (reachable : session.Reachable database) : session.context.queue.Faithful := by
  induction reachable with
  | opened session nothing =>
      rw [nothing]
      exact Queue.empty_faithful
  | planned world text _ ih => exact (plan_follows database _ world text).faithful ih
  | executed surroundings _ _ =>
      rw [execute_queue]
      exact Queue.empty_faithful
  | extended steps _ ih => exact Queue.append_faithful _ steps ih
  | truncated length _ _ => exact Queue.truncate_faithful _ length
  | emptied _ _ => exact Queue.empty_faithful
  | changed context same _ ih =>
      change context.queue.Faithful
      rw [same]
      exact ih
  | called state _ ih => exact ih

end Rollout.Session
