import Rollout.Plan.Basic
import Rollout.Proofs.Plan.Objects
import Rollout.Proofs.Plan.Seeds

/-!
Planning whole commands. The parser and the planner agree on the language: a command that was
parsed is never refused because it was not understood, whatever the tree and the database hold,
and neither is one in a file of commands, however deep.
-/

namespace Rollout

namespace Planner

variable {planner : Planner}

theorem withSteps_sound (command : Command) {draft : Draft Unit}
    (sound : planner.Sound (fun _ => True) draft) :
    planner.Sound (fun _ => True) (withSteps command draft) := by
  have events : ∀ event ∈ .step (.runCommand command.text) :: draft.events, planner.Sees event :=
    List.forall_mem_cons.mpr ⟨nofun, sound.events⟩
  unfold withSteps
  dsimp only
  split
  · rename_i error failed
    refine ⟨events, ?_, nofun⟩
    rintro _ ⟨⟩
    exact sound.fault error failed
  · split
    · exact ⟨events, nofun, fun _ _ => trivial⟩
    · split
      · refine ⟨events, ?_, nofun⟩
        rintro _ ⟨⟩
        rfl
      · refine ⟨events, ?_, nofun⟩
        rintro _ ⟨⟩
        rfl

theorem planTransaction_sound (command : Command) {steps : List Step}
    (plain : ∀ step ∈ steps, step.file? = none) :
    planner.Sound (fun _ => True) (planner.planTransaction command steps) := by
  unfold planTransaction
  split
  · exact .fail rfl
  · exact .each fun step member => plainStep_sound (plain step member)

theorem planList_sound {command : Command}
    (listed : (command.object.bind ListKind.ofName?).isSome = true) :
    planner.Sound (fun _ => True) (planList command) := by
  obtain ⟨kind, named⟩ := Option.isSome_iff_exists.mp listed
  unfold planList
  rw [named]
  exact .event trivial

theorem planWith_sound (orderly : planner.snapshot.Orderly) {inlined : FileRef → Draft Unit}
    (inlines : planner.Inlines inlined) {command : Command} (understood : command.Understood) :
    planner.Sound (fun _ => True) (planner.planWith inlined command) := by
  have plannable := understood.plannable
  unfold Command.isPlannable at plannable
  unfold planWith
  split
  · exact planTransaction_sound command (by decide)
  · exact planTransaction_sound command (by simp [Step.file?])
  · exact planTransaction_sound command (by simp [Step.file?])
  · rename_i root
    exact planList_sound (by simpa [root] using plannable)
  · rename_i root
    exact withSteps_sound command (planSeeds_sound orderly inlines understood
      (by simpa [root] using plannable))
  · rename_i root
    exact withSteps_sound command (planScript_sound understood (by simpa [root] using plannable))
  · -- only verbs are left
    have verbal : ((Verb.ofName? command.root).isSome &&
        Command.namesObject command.object command.clause
          (command.arguments.map (·.slot))) = true := by
      split at plannable <;> first | exact plannable | contradiction
    obtain ⟨known, named⟩ := Bool.and_eq_true_iff.mp verbal
    obtain ⟨verb, same⟩ := Option.isSome_iff_exists.mp known
    rw [same]
    exact withSteps_sound command (planObjects_sound orderly understood verb named)

/-- Files of commands are planned as their commands are, at any depth. -/
theorem inlineFile_inlines (grammar : planner.grammar = Grammar.builtin)
    (orderly : planner.snapshot.Orderly) (depth : Nat) :
    planner.Inlines (planner.inlineFile depth) := by
  -- the files that a file leads to may nest one level less
  induction depth with
  | zero => exact fun file records => .fail rfl
  | succ depth ih =>
      intro file records
      unfold inlineFile
      simp only [Draft.bind_eq]
      refine .andThen (.ofSource (fun _ => rfl) fun _ _ => trivial) fun text _ => ?_
      split
      · exact .fail rfl
      · rename_i commands parsed
        rw [grammar] at parsed
        split
        · exact .fail rfl
        · have entered : planner.Sound (fun _ => True) (Draft.step (.enterFile file)) :=
            fileStep_sound rfl records
          have left : planner.Sound (fun _ => True) (Draft.step (.leaveFile file)) :=
            fileStep_sound rfl records
          refine .andThen entered fun _ _ => .andThen (.each fun command member => ?_)
            fun _ _ => left
          exact planWith_sound orderly ih (Command.understood_of_parse parsed member)

theorem plan_sound (grammar : planner.grammar = Grammar.builtin)
    (orderly : planner.snapshot.Orderly) {command : Command} (understood : command.Understood)
    (depth : Nat) :
    planner.Sound (fun _ => True) (planner.planWith (planner.inlineFile depth) command) :=
  planWith_sound orderly (inlineFile_inlines grammar orderly depth) understood

end Planner

namespace Plan

variable {State : Type} {database : Option (Database State)} {outcome : Except PlanError Unit}

theorem settle_error {events : List Draft.Event} {state : State} {error : PlanError}
    (failed : (settle database outcome events state).1.outcome = .error error) :
    outcome = .error error ∨ (∃ command, error = .noDatabase command) ∨
      ∃ fault, error = .database fault := by
  -- only listings ask the database; all other events are passed on
  induction events generalizing state database with
  | nil => exact .inl failed
  | cons event rest ih =>
      cases event with
      | tried pattern => exact ih failed
      | step step => exact ih failed
      | listing kind command =>
          cases database with
          | none =>
              cases failed
              exact .inr (.inl ⟨_, rfl⟩)
          | some database =>
              unfold settle at failed
              dsimp only at failed
              split at failed
              · cases failed
                exact .inr (.inr ⟨_, rfl⟩)
              · exact ih failed

theorem mem_settle_steps {events : List Draft.Event} {state : State} {step : Step}
    (member : step ∈ (settle database outcome events state).1.steps) :
    .step step ∈ events ∨ step.isList = true := by
  induction events generalizing state database with
  | nil => cases member
  | cons event rest ih =>
      have later : (.step step ∈ rest ∨ step.isList = true) →
          .step step ∈ event :: rest ∨ step.isList = true :=
        Or.imp_left (List.mem_cons_of_mem _)
      cases event with
      | tried pattern => exact later (ih member)
      | step first =>
          rcases List.mem_cons.mp member with rfl | deeper
          · exact .inl List.mem_cons_self
          · exact later (ih deeper)
      | listing kind command =>
          cases database with
          | none => cases member
          | some database =>
              unfold settle at member
              dsimp only at member
              split at member
              · cases member
              · rcases List.mem_cons.mp member with rfl | deeper
                · exact .inr rfl
                · exact later (ih deeper)

end Plan

namespace Planner

variable {State : Type} {planner : Planner}

/-- Every file that a plan is about was found, at the ref of the planner. -/
theorem plan_records (grammar : planner.grammar = Grammar.builtin)
    (orderly : planner.snapshot.Orderly) {command : Command} (understood : command.Understood)
    {database : Option (Database State)} {state : State} {step : Step} {file : FileRef}
    (member : step ∈ ((planner.plan command).settle database state).1.steps)
    (same : step.file? = some file) : planner.Records file := by
  have sound := plan_sound grammar orderly understood depthLimit
  rcases Plan.mem_settle_steps member with event | list
  · exact sound.events _ event file same
  · cases step
    case list kind schemas => cases same
    all_goals cases list

/-- A file of commands among the seeds, which creates a schema that the tree does not have. -/
def seeding : Planner where
  grammar := Grammar.builtin
  snapshot := .disk ⟨".", .node (.folder
    (.folder "seeds" (.file "all.ddsl" (.text "create schema app") .nil) .nil))⟩
  ref := none
  autoTransaction := true

end Planner

end Rollout
