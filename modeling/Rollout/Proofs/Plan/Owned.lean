import Rollout.Proofs.Plan.Assembled
import Rollout.Proofs.Plan.Draft

/-!
Transactions that are opened and closed automatically. A command that opens or closes one has no
plan then, and neither has a command that leads to it through files of commands, however deep.
-/

namespace Rollout

/-- Is the command there to open or to close a transaction? -/
def Command.isTransaction (command : Command) : Bool :=
  command.root == "begin" || command.root == "commit" || command.root == "rollback"

namespace Planner

variable {Value Next : Type} (planner : Planner)

/-- The command is one of those in a file of commands. -/
def Holds (file : FileRef) (command : Command) : Prop :=
  ∃ text commands, planner.snapshot.read file.path = .ok text ∧
    Command.parse planner.grammar text = .ok commands ∧ command ∈ commands

/-- If the draft comes to its end, the files of commands that it has inlined hold no command about
transactions. -/
def Spotless (draft : Draft Value) : Prop :=
  ∀ value, draft.outcome = .ok value → ∀ file, .step (.enterFile file) ∈ draft.events →
    ∀ command, planner.Holds file command → command.isTransaction = false

variable {planner}

namespace Spotless

theorem failed {draft : Draft Value} {error : PlanError} (outcome : draft.outcome = .error error) :
    planner.Spotless draft := by
  intro value ended
  cases outcome.symm.trans ended

theorem unentered {draft : Draft Value}
    (none : ∀ file, Draft.Event.step (.enterFile file) ∉ draft.events) :
    planner.Spotless draft :=
  fun _ _ file entered => absurd entered (none file)

theorem andThen {draft : Draft Value} {next : Value → Draft Next} (first : planner.Spotless draft)
    (rest : ∀ value, planner.Spotless (next value)) : planner.Spotless (draft.andThen next) := by
  unfold Draft.andThen
  split <;> rename_i outcome
  · exact .failed rfl
  · intro result ended file entered
    rcases List.mem_append.mp entered with earlier | later
    · exact first _ outcome file earlier
    · exact rest _ result ended file later

end Spotless

theorem Assembled.spotless {inlined : FileRef → Draft Unit}
    (inlines : ∀ file, planner.Spotless (inlined file)) {draft : Draft Value}
    (assembled : planner.Assembled inlined draft) : planner.Spotless draft := by
  induction assembled with
  | done | fail | ofSource => exact .unentered fun _ => List.not_mem_nil
  | tried pattern =>
      refine .unentered fun file entered => ?_
      cases List.mem_singleton.mp entered
  | work works _ =>
      refine .unentered fun file entered => ?_
      cases List.mem_singleton.mp entered
      cases works
  | inlined path => exact inlines _
  | andThen _ _ first rest => exact .andThen first rest

theorem withSteps_spotless (command : Command) {draft : Draft Unit}
    (spotless : planner.Spotless draft) : planner.Spotless (withSteps command draft) := by
  unfold withSteps
  dsimp only
  split <;> rename_i outcome
  · exact .failed rfl
  · split
    · intro _ _ file entered
      rcases List.mem_cons.mp entered with same | later
      · cases same
      · exact spotless () outcome file later
    · split <;> exact .failed rfl

/-- A command that has a plan is not about transactions itself. -/
theorem planWith_ordinary (automatic : planner.autoTransaction = true)
    {inlined : FileRef → Draft Unit} {command : Command} {value : Unit}
    (ended : (planner.planWith inlined command).outcome = .ok value) :
    command.isTransaction = false := by
  have refused : ∀ steps, (planner.planTransaction command steps).outcome ≠ .ok value := by
    intro steps ended
    unfold planTransaction at ended
    rw [if_pos automatic] at ended
    cases ended
  unfold planWith at ended
  unfold Command.isTransaction
  split at ended
  · exact absurd ended (refused _)
  · exact absurd ended (refused _)
  · exact absurd ended (refused _)
  all_goals simp_all

theorem planWith_spotless (automatic : planner.autoTransaction = true)
    {inlined : FileRef → Draft Unit} (inlines : ∀ file, planner.Spotless (inlined file))
    (command : Command) : planner.Spotless (planner.planWith inlined command) := by
  have refused : ∀ steps, planner.Spotless (planner.planTransaction command steps) := by
    intro steps
    unfold planTransaction
    rw [if_pos automatic]
    exact .failed rfl
  unfold planWith
  split
  · exact refused _
  · exact refused _
  · exact refused _
  · unfold planList
    split
    · refine .unentered fun file entered => ?_
      cases List.mem_singleton.mp entered
    · exact .failed rfl
  · exact withSteps_spotless command ((planner.planSeeds_assembled command).spotless inlines)
  · exact withSteps_spotless command ((planner.planScript_assembled command).spotless inlines)
  · split
    · exact withSteps_spotless command ((planner.planObjects_assembled command _).spotless inlines)
    · exact .failed rfl

/-- A file of commands that is inlined to its end has a plan for each of its commands. -/
theorem inlineFile_ok {depth : Nat} {file : FileRef} {value : Unit}
    (ended : (planner.inlineFile (depth + 1) file).outcome = .ok value) :
    ∃ text commands, planner.snapshot.read file.path = .ok text ∧
      Command.parse planner.grammar text = .ok commands ∧
      (∀ command ∈ commands,
        (planner.planWith (planner.inlineFile depth) command).outcome = .ok ()) ∧
      (planner.inlineFile (depth + 1) file).events =
        .step (.enterFile file) :: (commands.flatMap fun command =>
          (planner.planWith (planner.inlineFile depth) command).events) ++
            [.step (.leaveFile file)] := by
  unfold inlineFile at ended ⊢
  simp only [Draft.bind_eq] at ended ⊢
  cases read : planner.snapshot.read file.path with
  | error fault =>
      rw [read] at ended
      cases ended
  | ok text =>
      rw [read, Draft.ofSource_andThen] at ended
      rw [Draft.ofSource_andThen]
      cases parsed : Command.parse planner.grammar text with
      | error error =>
          rw [parsed] at ended
          cases ended
      | ok commands =>
          rw [parsed] at ended
          dsimp only at ended ⊢
          split at ended <;> rename_i pinned
          · cases ended
          · rw [if_neg pinned]
            obtain ⟨_, -, ended, entering⟩ := Draft.andThen_ok ended
            obtain ⟨_, planned, -, leaving⟩ := Draft.andThen_ok ended
            obtain ⟨all, between⟩ := Draft.each_ok planned
            refine ⟨text, commands, rfl, parsed, all, ?_⟩
            rw [entering, leaving, between]
            rfl

/-- Neither the file nor a file that its commands lead to holds a command about transactions. -/
theorem inlineFile_spotless (automatic : planner.autoTransaction = true) (depth : Nat)
    (file : FileRef) : planner.Spotless (planner.inlineFile depth file) := by
  induction depth generalizing file with
  | zero => exact .failed rfl
  | succ depth ih =>
      intro value ended entered within command holds
      obtain ⟨text, commands, read, parsed, all, events⟩ := inlineFile_ok ended
      simp only [events, List.cons_append, List.mem_cons, List.mem_append, List.mem_flatMap,
        List.not_mem_nil, or_false, reduceCtorEq, Draft.Event.step.injEq, Step.enterFile.injEq]
        at within
      rcases within with rfl | ⟨inner, among, later⟩
      · -- the file is read and parsed as it was for its own commands
        obtain ⟨same, found, again, understood, member⟩ := holds
        cases read.symm.trans again
        cases parsed.symm.trans understood
        exact planWith_ordinary automatic (all command member)
      · exact planWith_spotless automatic ih inner () (all inner among) entered later command holds

end Planner

end Rollout
