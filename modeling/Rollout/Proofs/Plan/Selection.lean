import Rollout.Proofs.Plan.Lands
import Rollout.Proofs.Plan.Planner
import Rollout.Proofs.Plan.Settled

/-!
The seed files that a command selects. What a command that seeds comes to is what these files come
to, one after the other; and a file of commands comes to what its commands do, between two marks.
-/

namespace Rollout

namespace Draft

variable {Value Next State : Type} {database : Option (Database State)} {state after : State}
  {steps : List Step}

/-- The values that a draft goes on with, none if it fails. -/
def results (draft : Draft (List Value)) : List Value :=
  match draft.outcome with
  | .ok values => values
  | .error _ => []

/-- The draft notes patterns and plans nothing. -/
def Quiet (draft : Draft Value) : Prop := ∀ event ∈ draft.events, ∃ pattern, event = .tried pattern

theorem Quiet.lands {draft : Draft Value} {value : Value} (quiet : draft.Quiet)
    (lands : draft.Lands database state value steps after) : steps = [] ∧ after = state := by
  have each : ∀ events : List Event, (∀ event ∈ events, ∃ pattern, event = .tried pattern) →
      ∀ {state : State} {steps : List Step}, Plan.Passes database events state steps after →
        steps = [] ∧ after = state := by
    intro events tried
    induction events with
    | nil =>
        intro state steps passes
        cases passes
        exact ⟨rfl, rfl⟩
    | cons event rest ih =>
        intro state steps passes
        obtain ⟨⟨pattern, rfl⟩, later⟩ := List.forall_mem_cons.mp tried
        cases passes with
        | cons comes others =>
            cases comes
            exact ih later others
  exact each draft.events quiet lands.passes

theorem quiet_ofSource (result : Except SourceError Value) : (Draft.ofSource result).Quiet :=
  fun _ member => absurd member List.not_mem_nil

theorem ok_of_ofSource {result : Except SourceError Value} {value : Value}
    (ended : (Draft.ofSource result).outcome = .ok value) : result = .ok value := by
  cases result with
  | error error => cases ended
  | ok other =>
      cases ended
      rfl

theorem Lands.of_step {step : Step}
    (lands : (Draft.step step).Lands database state () steps after) :
    steps = [step] ∧ after = state := by
  obtain ⟨-, passes⟩ := lands
  cases passes with
  | cons comes rest =>
      cases comes
      cases rest
      exact ⟨rfl, rfl⟩

/-- What comes after a quiet draft is all that lands. -/
theorem Lands.of_quiet {draft : Draft Value} {next : Value → Draft Next} {result : Next}
    (quiet : draft.Quiet) (lands : (draft.andThen next).Lands database state result steps after) :
    ∃ value, draft.outcome = .ok value ∧
      (next value).Lands database state result steps after := by
  obtain ⟨value, early, middle, late, first, later, rfl⟩ := lands.of_andThen
  obtain ⟨rfl, rfl⟩ := quiet.lands first
  exact ⟨value, first.ended, later⟩

theorem Lands.of_results {draft : Draft (List Value)} {next : List Value → Draft Next}
    {result : Next} (quiet : draft.Quiet)
    (lands : (draft.andThen next).Lands database state result steps after) :
    (next draft.results).Lands database state result steps after := by
  obtain ⟨values, ended, later⟩ := lands.of_quiet quiet
  unfold Draft.results
  rwa [ended]

end Draft

/-- The command seeds from files, rather than with a script or a line for the shell. -/
def Command.SeedsFiles (command : Command) : Prop :=
  command.object ∈
    [some "database", some "schema", some "schemas", some "table", some "tables"]

instance (command : Command) : Decidable command.SeedsFiles :=
  inferInstanceAs (Decidable (_ ∈ _))

namespace Planner

variable {planner : Planner} {command : Command}

theorem resolve_quiet (kind : FileKind) (verb : Option Verb) (schema item : Option String) :
    (planner.resolve kind verb schema item).Quiet := by
  intro event member
  simp only [resolve] at member
  split at member
  · cases member
  · rcases Draft.mem_andThen member with none | ⟨_, -, later⟩
    · cases none
    · rcases Draft.mem_andThen later with tried | ⟨_, -, none⟩
      · exact ⟨_, List.mem_singleton.mp tried⟩
      · cases none

theorem schemas_quiet : planner.schemas.Quiet := Draft.quiet_ofSource _

theorem splitName_quiet (command : Command) (name : String) : (command.splitName name).Quiet := by
  unfold Command.splitName
  split <;> exact fun _ member => absurd member List.not_mem_nil

theorem qualified_of_splitName {name : String} {parts : String × String}
    (split : (command.splitName name).outcome = .ok parts) : Name.qualified? name = some parts := by
  unfold Command.splitName at split
  cases whole : Name.qualified? name with
  | none =>
      rw [whole] at split
      cases split
  | some pair =>
      rw [whole] at split
      cases split
      rfl

/-- The seed files of a kind. -/
def seedFiles (planner : Planner) (kind : FileKind) (schema item : Option String) : List String :=
  (planner.resolve kind none schema item).results

/-- The seed files that a command selects, in the order in which it takes them. -/
def selection (planner : Planner) (command : Command) : List String :=
  let ofSchema (schema : String) :=
    command.selectSeeds (planner.seedFiles .schemaSeeds (some schema) none)
  match command.object with
  | some "database" => command.selectSeeds (planner.seedFiles .databaseSeeds none none)
  | some "schema" => command.schemaNames.flatMap ofSchema
  | some "schemas" => (command.filterSchemas planner.schemas.results).flatMap ofSchema
  | some "table" => command.itemNames.flatMap fun name =>
      match Name.qualified? name with
      | some (schema, item) =>
          command.selectSeeds (planner.seedFiles .tableSeeds (some schema) (some item))
      | none => []
  | some "tables" => (command.filterSchemas planner.schemas.results).flatMap fun schema =>
      planner.seedFiles .tableSeeds (some schema) (some Name.wildcard)
  | _ => []

/-- A schema that a command is about: it is named, or found. -/
def About (planner : Planner) (command : Command) (schema : String) : Prop :=
  schema ∈ command.schemaNames ∨ schema ∈ planner.schemas.results

/-- The table, if any, that a command has the rows of a file loaded into. -/
inductive Assigns (planner : Planner) (command : Command) (path : String) :
    Option (String × String) → Prop where
  | nothing (found : path ∈ planner.seedFiles .databaseSeeds none none) :
      Assigns planner command path none
  | bySchema {schema : String} (about : planner.About command schema)
      (found : path ∈ planner.seedFiles .schemaSeeds (some schema) none) :
      Assigns planner command path (some (schema, Path.stem path))
  | byName {name schema item : String} (named : name ∈ command.itemNames)
      (split : Name.qualified? name = some (schema, item))
      (found : path ∈ planner.seedFiles .tableSeeds (some schema) (some item)) :
      Assigns planner command path (Path.schemaItem? path)
  | byPath {schema : String} (about : planner.About command schema)
      (found : path ∈ planner.seedFiles .tableSeeds (some schema) (some Name.wildcard)) :
      Assigns planner command path (Path.schemaItem? path)

section Selected

variable {State : Type} {database : Option (Database State)} {state after : State}
  {steps : List Step} {inlined : FileRef → Draft Unit}

/-- The file is planned for the table that the command assigns to it. -/
def Seeded (planner : Planner) (inlined : FileRef → Draft Unit) (command : Command)
    (database : Option (Database State)) (path : String) (state : State) (steps : List Step)
    (after : State) : Prop :=
  ∃ target, planner.Assigns command path target ∧
    (planner.planSeedFile inlined target path).Lands database state () steps after

theorem planSchemaSeeds_lands {schema : String} (about : planner.About command schema)
    (lands : (planner.planSchemaSeeds inlined command schema).Lands database state () steps after) :
    Plan.Sequence (planner.Seeded inlined command database)
      (command.selectSeeds (planner.seedFiles .schemaSeeds (some schema) none))
      state steps after := by
  refine (lands.of_results (resolve_quiet _ _ _ _)).each.weaken fun path member _ _ _ landed =>
    ⟨_, .bySchema about (Command.mem_selectSeeds member), landed⟩

/-- Seeding comes to the steps for the selected files, one file after the other. -/
theorem planSeeds_lands (named : command.SeedsFiles)
    (lands : (planner.planSeeds inlined command).Lands database state () steps after) :
    Plan.Sequence (planner.Seeded inlined command database) (planner.selection command)
      state steps after := by
  simp only [Command.SeedsFiles, List.mem_cons, List.not_mem_nil, or_false] at named
  unfold planSeeds at lands
  unfold selection
  rcases named with named | named | named | named | named <;>
    rw [named] at lands ⊢ <;> dsimp only at lands ⊢
  · refine (lands.of_results (resolve_quiet _ _ _ _)).each.weaken fun path member _ _ _ landed =>
      ⟨_, .nothing (Command.mem_selectSeeds member), landed⟩
  · refine (lands.each.weaken fun schema member _ _ _ landed => ?_).flatMap
    exact planSchemaSeeds_lands (.inl member) landed
  · refine ((lands.of_results schemas_quiet).each.weaken
      fun schema member _ _ _ landed => ?_).flatMap
    exact planSchemaSeeds_lands (.inr (Command.mem_filterSchemas member)) landed
  · refine (lands.each.weaken fun name member _ _ _ landed => ?_).flatMap
    obtain ⟨⟨schema, item⟩, split, later⟩ := landed.of_quiet (splitName_quiet command name)
    have parts := qualified_of_splitName split
    rw [parts]
    exact (later.of_results (resolve_quiet _ _ _ _)).each.weaken fun path among _ _ _ landed =>
      ⟨_, .byName member parts (Command.mem_selectSeeds among), landed⟩
  · refine ((lands.of_results schemas_quiet).each.weaken
      fun schema member _ _ _ landed => ?_).flatMap
    have about : planner.About command schema := .inr (Command.mem_filterSchemas member)
    exact (landed.of_results (resolve_quiet _ _ _ _)).each.weaken fun path among _ _ _ landed =>
      ⟨_, .byPath about among, landed⟩

/-- A command that comes to its end is planned as itself, and then what it leads to. -/
theorem withSteps_lands {draft : Draft Unit}
    (lands : (withSteps command draft).Lands database state () steps after) :
    ∃ rest, steps = .runCommand command.text :: rest ∧
      draft.Lands database state () rest after := by
  obtain ⟨ended, passes⟩ := lands
  rw [withSteps_events] at passes
  have outcome : draft.outcome = .ok () := by
    cases outcome : draft.outcome with
    | error error => cases (withSteps_failed outcome).symm.trans ended
    | ok value => rfl
  cases passes with
  | cons comes rest =>
      cases comes
      exact ⟨_, rfl, outcome, rest⟩

/-- A file of commands that comes to its end holds commands that do. -/
theorem inlineFile_lands {levels : Nat} {file : FileRef}
    (lands : (planner.inlineFile levels file).Lands database state () steps after) :
    ∃ fewer text commands inner, levels = fewer + 1 ∧ planner.snapshot.read file.path = .ok text ∧
      Command.parse planner.grammar text = .ok commands ∧
      steps = .enterFile file :: inner ++ [.leaveFile file] ∧
      Plan.Sequence (fun command state steps after =>
        (planner.planWith (planner.inlineFile fewer) command).Lands database state () steps after)
        commands state inner after := by
  cases levels with
  | zero => cases lands.ended
  | succ fewer =>
      unfold inlineFile at lands
      obtain ⟨text, read, rest⟩ := lands.of_quiet (Draft.quiet_ofSource _)
      split at rest
      · cases rest.ended
      · rename_i commands parsed
        split at rest
        · cases rest.ended
        · obtain ⟨_, _, _, _, entered, later, rfl⟩ := rest.of_andThen
          obtain ⟨_, inner, _, _, each, left, rfl⟩ := later.of_andThen
          obtain ⟨rfl, rfl⟩ := entered.of_step
          obtain ⟨rfl, rfl⟩ := left.of_step
          have found : planner.snapshot.read file.path = .ok text := Draft.ok_of_ofSource read
          exact ⟨fewer, text, commands, inner, rfl, found, parsed, rfl, each.each⟩

end Selected

end Planner

end Rollout
