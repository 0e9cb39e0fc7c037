import Rollout.Proofs.Plan.Assembled
import Rollout.Proofs.Plan.Basic

/-!
The refs of plans. Whatever the tree holds and whatever the command is, the files that a plan is
about are recorded at the ref of the planner, also those that files of commands lead to.
-/

namespace Rollout.Planner

variable {Value Next : Type} (planner : Planner)

/-- All steps of the draft refer to the ref of the planner. -/
def Pinned (draft : Draft Value) : Prop :=
  ∀ step, Draft.Event.step step ∈ draft.events → planner.Refers step

variable {planner}

theorem Pinned.quiet {draft : Draft Value} (silent : draft.events = []) : planner.Pinned draft := by
  intro step member
  rw [silent] at member
  cases member

theorem Pinned.step {step : Step} (refers : planner.Refers step) :
    planner.Pinned (Draft.step step) := by
  intro only member
  cases List.mem_singleton.mp member
  exact refers

theorem Pinned.andThen {draft : Draft Value} {next : Value → Draft Next}
    (first : planner.Pinned draft) (rest : ∀ value, planner.Pinned (next value)) :
    planner.Pinned (draft.andThen next) := by
  unfold Draft.andThen
  split
  · exact first
  · intro step member
    rcases List.mem_append.mp member with earlier | later
    · exact first step earlier
    · exact rest _ step later

theorem Pinned.each {draft : Value → Draft Unit} (all : ∀ value, planner.Pinned (draft value))
    (list : List Value) : planner.Pinned (Draft.each draft list) := by
  induction list with
  | nil => exact .quiet rfl
  | cons value rest ih => exact .andThen (all value) fun _ => ih

theorem Refers.plain {step : Step} (plain : step.file? = none) : planner.Refers step := by
  intro file same
  rw [plain] at same
  cases same

theorem Assembled.pinned {inlined : FileRef → Draft Unit}
    (inlines : ∀ path, planner.Pinned (inlined (planner.file path))) {draft : Draft Value}
    (assembled : planner.Assembled inlined draft) : planner.Pinned draft := by
  induction assembled with
  | done | fail | ofSource => exact .quiet rfl
  | tried pattern =>
      intro step member
      cases List.mem_singleton.mp member
  | work works refers => exact .step refers
  | inlined path => exact inlines path
  | andThen _ _ first rest => exact .andThen first rest

theorem withSteps_pinned (command : Command) {draft : Draft Unit} (pinned : planner.Pinned draft) :
    planner.Pinned (withSteps command draft) := by
  have events : ∀ step, Draft.Event.step step ∈ .step (.runCommand command.text) :: draft.events →
      planner.Refers step := by
    intro step member
    rcases List.mem_cons.mp member with same | later
    · cases same
      exact .plain rfl
    · exact pinned step later
  unfold withSteps
  dsimp only
  split
  · exact events
  · split
    · exact events
    · split <;> exact events

theorem planTransaction_pinned (command : Command) {steps : List Step}
    (plain : ∀ step ∈ steps, step.file? = none) :
    planner.Pinned (planner.planTransaction command steps) := by
  unfold planTransaction
  split
  · exact .quiet rfl
  · induction steps with
    | nil => exact .quiet rfl
    | cons step rest ih =>
        obtain ⟨here, later⟩ := List.forall_mem_cons.mp plain
        exact .andThen (.step (.plain here)) fun _ => ih later

theorem planList_pinned (command : Command) : planner.Pinned (planList command) := by
  unfold planList
  split
  · intro step member
    cases List.mem_singleton.mp member
  · exact .quiet rfl

theorem planWith_pinned {inlined : FileRef → Draft Unit}
    (inlines : ∀ path, planner.Pinned (inlined (planner.file path))) (command : Command) :
    planner.Pinned (planner.planWith inlined command) := by
  unfold planWith
  split
  · exact planTransaction_pinned command (by decide)
  · exact planTransaction_pinned command (by simp [Step.file?])
  · exact planTransaction_pinned command (by simp [Step.file?])
  · exact planList_pinned command
  · exact withSteps_pinned command ((planner.planSeeds_assembled command).pinned inlines)
  · exact withSteps_pinned command ((planner.planScript_assembled command).pinned inlines)
  · split
    · exact withSteps_pinned command ((planner.planObjects_assembled command _).pinned inlines)
    · exact .quiet rfl

/-- The marks of a file of commands are at its ref, and so is what its commands lead to. -/
theorem inlineFile_pinned (depth : Nat) (path : String) :
    planner.Pinned (planner.inlineFile depth (planner.file path)) := by
  induction depth generalizing path with
  | zero => exact .quiet rfl
  | succ depth ih =>
      have marks {step : Step} (about : step.file? = some (planner.file path)) :
          planner.Pinned (Draft.step step) := by
        refine .step fun file same => ?_
        rw [about] at same
        cases same
        rfl
      unfold inlineFile
      simp only [Draft.bind_eq]
      refine .andThen (.quiet rfl) fun text => ?_
      split
      · exact .quiet rfl
      · split
        · exact .quiet rfl
        · exact .andThen (marks rfl) fun _ =>
            .andThen (.each (planWith_pinned ih) _) fun _ => marks rfl

variable {State : Type}

/-- Every step of a plan refers to the ref of the planner. -/
theorem plan_refers {command : Command} {database : Option (Database State)} {state : State}
    {step : Step} (member : step ∈ ((planner.plan command).settle database state).1.steps) :
    planner.Refers step := by
  rcases Plan.mem_settle_steps member with event | list
  · exact planWith_pinned (inlineFile_pinned depthLimit) command step event
  · cases step
    case list kind schemas => exact .plain rfl
    all_goals cases list

end Rollout.Planner
