import Rollout.Proofs.Plan.Filters
import Rollout.Proofs.Plan.Lands
import Rollout.Proofs.Plan.Tried

/-!
Commands on listed names take them one at a time. What is planned for a list and another is what is
planned for the one and then for the other: nothing is carried over from one name to the next, and
only if none leads to a step does the whole command come to nothing.
-/

namespace Rollout

namespace Draft

variable {Value Next : Type}

theorem each_congr {first second : Value → Draft Unit} {list : List Value}
    (same : ∀ value ∈ list, first value = second value) : each first list = each second list := by
  induction list with
  | nil => rfl
  | cons value rest ih =>
      obtain ⟨here, later⟩ := List.forall_mem_cons.mp same
      rw [each, each, here, ih later]

/-- A draft that fails because nothing was found is in the midst of a file of commands. -/
def Entered (draft : Draft Value) : Prop :=
  ∀ error, draft.outcome = .error error → error.isEmpty = true → draft.events.any (·.isStep) = true

namespace Entered

theorem ended {draft : Draft Value} {value : Value} (ended : draft.outcome = .ok value) :
    draft.Entered := by
  intro error failed
  rw [ended] at failed
  cases failed

theorem fail {error : PlanError} (filled : error.isEmpty = false) :
    (Draft.fail error : Draft Value).Entered := by
  rintro _ ⟨⟩ empty
  rw [filled] at empty
  cases empty

theorem ofSource (result : Except SourceError Value) : (Draft.ofSource result).Entered := by
  cases result with
  | ok value => exact ended rfl
  | error error =>
      have filled : (PlanError.source error).isEmpty = false := rfl
      exact fail filled

theorem andThen {draft : Draft Value} {next : Value → Draft Next} (first : draft.Entered)
    (rest : ∀ value, (next value).Entered) : (draft.andThen next).Entered := by
  intro error failed empty
  unfold Draft.andThen at failed ⊢
  cases outcome : draft.outcome with
  | error fault =>
      rw [outcome] at failed
      cases failed
      exact first error outcome empty
  | ok value =>
      rw [outcome] at failed
      dsimp only at failed ⊢
      rw [List.any_append, rest value error failed empty, Bool.or_true]

/-- After a step it does not matter what fails. -/
theorem after (step : Step) (next : Unit → Draft Next) :
    ((Draft.step step).andThen next).Entered := fun _ _ _ => rfl

end Entered

end Draft

namespace Planner

variable {planner : Planner} {inlined : FileRef → Draft Unit} {Value : Type}

theorem Assembled.entered (inlines : ∀ file, (inlined file).Entered) {draft : Draft Value}
    (assembled : planner.Assembled inlined draft) : draft.Entered := by
  induction assembled with
  | done | tried | work => exact .ended rfl
  | fail filled => exact .fail filled
  | ofSource result => exact .ofSource result
  | inlined path => exact inlines _
  | andThen _ _ first rest => exact .andThen first rest

theorem inlineFile_entered (depth : Nat) (file : FileRef) :
    (planner.inlineFile depth file).Entered := by
  cases depth with
  | zero => exact .fail rfl
  | succ depth =>
      unfold inlineFile
      refine .andThen (.ofSource _) fun text => ?_
      split
      · exact .fail rfl
      · split
        · exact .fail rfl
        · exact .after _ _

end Planner

namespace Plan

/-- The command comes to nothing: no file matches what it tries itself, rather than what a command
in a file tries. -/
def FoundNothing (command : Command) (plan : Plan) : Prop :=
  (∃ patterns, plan.outcome = .error (.noMatch command.text patterns)) ∧
    plan.steps = [.runCommand command.text]

/-- The steps that a command adds after itself, none if it comes to nothing, or another error. -/
inductive Gains (command : Command) (plan : Plan) : Except PlanError (List Step) → Prop where
  | steps {steps : List Step} (ended : plan.outcome = .ok ())
      (planned : plan.steps = .runCommand command.text :: steps) : Gains command plan (.ok steps)
  | nothing (none : plan.FoundNothing command) : Gains command plan (.ok [])
  | fails {error : PlanError} (failed : plan.outcome = .error error)
      (other : ¬ plan.FoundNothing command) : Gains command plan (.error error)

/-- The plan of a command tells what the command adds. -/
theorem Gains.unique {command : Command} {plan : Plan} {first second : Except PlanError (List Step)}
    (one : Gains command plan first) (two : Gains command plan second) : first = second := by
  cases one with
  | steps ended planned =>
      cases two with
      | steps _ also => cases planned.symm.trans also; rfl
      | nothing none => cases ended.symm.trans none.1.choose_spec
      | fails failed => cases ended.symm.trans failed
  | nothing none =>
      cases two with
      | steps ended => cases ended.symm.trans none.1.choose_spec
      | nothing => rfl
      | fails _ other => exact absurd none other
  | fails failed other =>
      cases two with
      | steps ended => cases ended.symm.trans failed
      | nothing none => exact absurd none other
      | fails also => cases failed.symm.trans also; rfl

end Plan

namespace Draft

variable {State : Type} {database : Option (Database State)}

/-- What a draft comes to, and the state of the database after it. -/
inductive Settles (database : Option (Database State)) (draft : Draft Unit) (state : State) :
    Except PlanError (List Step) → State → Prop where
  | lands {steps : List Step} {after : State}
      (lands : draft.Lands database state () steps after) :
      Settles database draft state (.ok steps) after
  | fails {error : PlanError} {steps : List Step} {after : State}
      (failed : draft.outcome = .error error)
      (passes : Plan.Passes database draft.events state steps after) :
      Settles database draft state (.error error) after
  | stops {error : PlanError} {after : State}
      (stops : Plan.Stops database draft.events state error after) :
      Settles database draft state (.error error) after

theorem settles (database : Option (Database State)) (draft : Draft Unit) (state : State) :
    ∃ result after, Settles database draft state result after := by
  rcases Plan.passes_or_stops database draft.events state with
    ⟨steps, after, passes⟩ | ⟨error, after, stops⟩
  · cases outcome : draft.outcome with
    | error error => exact ⟨_, after, .fails outcome passes⟩
    | ok value => exact ⟨_, after, .lands ⟨outcome, passes⟩⟩
  · exact ⟨_, after, .stops stops⟩

theorem Settles.andThen {first second : Draft Unit} {state middle after : State}
    {early late : Except PlanError (List Step)} (start : Settles database first state early middle)
    (rest : Settles database second middle late after) :
    ∃ last, Settles database (first.andThen fun _ => second) state
      (early.bind fun steps => late.map (steps ++ ·)) last := by
  cases start with
  | lands landed =>
      have whole : first.andThen (fun _ => second) =
          ⟨first.events ++ second.events, second.outcome⟩ := by
        simp [Draft.andThen, landed.ended]
      cases rest with
      | lands ended => exact ⟨_, .lands (landed.andThen ended)⟩
      | fails failed passes =>
          rw [whole]
          exact ⟨_, .fails failed (landed.passes.append passes)⟩
      | stops stops =>
          rw [whole]
          exact ⟨_, .stops (stops.behind landed.passes)⟩
  | fails failed passes =>
      have whole : first.andThen (fun _ => second) = first := by
        simp only [Draft.andThen, failed]
        rw [← failed]
      rw [whole]
      exact ⟨_, .fails failed passes⟩
  | stops stops =>
      refine ⟨middle, .stops ?_⟩
      unfold Draft.andThen
      cases first.outcome with
      | error error => exact stops
      | ok value => exact stops.append second.events

end Draft

namespace Planner

variable {State : Type} {database : Option (Database State)} {command : Command}
  {draft : Draft Unit} {state after : State} {result : Except PlanError (List Step)}

theorem withSteps_passes {steps : List Step}
    (passes : Plan.Passes database draft.events state steps after) :
    ((withSteps command draft).settle database state).1.steps =
        .runCommand command.text :: steps ∧
      ((withSteps command draft).settle database state).1.outcome =
        (withSteps command draft).outcome ∧
      ((withSteps command draft).settle database state).2 = after := by
  have both : Plan.Passes database (.step (.runCommand command.text) :: draft.events) state
      (.runCommand command.text :: steps) after := .cons (.step _ state) passes
  have whole := both.settle (withSteps command draft).outcome []
  rw [List.append_nil] at whole
  unfold Draft.settle
  rw [withSteps_events]
  simpa [Plan.settle] using whole

theorem withSteps_settles (tries : draft.Tries) (entered : draft.Entered)
    (settles : Draft.Settles database draft state result after) :
    ((withSteps command draft).settle database state).1.Gains command result ∧
      ((withSteps command draft).settle database state).2 = after ∧
      (((withSteps command draft).settle database state).1.FoundNothing command ↔
        result = .ok []) := by
  cases settles with
  | lands lands =>
      obtain ⟨planned, outcome, left⟩ := withSteps_passes lands.passes
      rw [withSteps_outcome lands.ended] at outcome
      by_cases filled : draft.events.any (·.isStep) = true
      · rw [if_pos filled] at outcome
        refine ⟨.steps outcome planned, left, ?_, ?_⟩
        · rintro ⟨⟨patterns, failed⟩, -⟩
          cases outcome.symm.trans failed
        · rintro ⟨⟩
          rw [lands.passes.filled.mp rfl] at filled
          cases filled
      · have none : _ = [] := lands.passes.filled.mpr (Bool.not_eq_true _ ▸ filled)
        subst none
        rw [if_neg filled, if_neg (tries () lands.ended)] at outcome
        have nothing : ((withSteps command draft).settle database state).1.FoundNothing command :=
          ⟨⟨_, outcome⟩, planned⟩
        exact ⟨.nothing nothing, left, fun _ => rfl, fun _ => nothing⟩
  | fails failed passes =>
      obtain ⟨planned, outcome, left⟩ := withSteps_passes passes
      rw [withSteps_failed failed] at outcome
      have other : ¬ ((withSteps command draft).settle database state).1.FoundNothing command := by
        rintro ⟨⟨patterns, empty⟩, only⟩
        cases outcome.symm.trans empty
        -- the error would come from a file of commands, which was entered by a step
        have filled := entered _ failed rfl
        rw [planned] at only
        cases only
        rw [passes.filled.mp rfl] at filled
        cases filled
      exact ⟨.fails outcome other, left, fun nothing => absurd nothing other, nofun⟩
  | stops stops =>
      have itself : Draft.Event.Comes database (.step (.runCommand command.text)) state
          [.runCommand command.text] state := .step _ state
      have whole := (Plan.Stops.later itself stops).settle (withSteps command draft).outcome []
      rw [List.append_nil, ← withSteps_events] at whole
      obtain ⟨outcome, left⟩ := whole
      have other : ¬ ((withSteps command draft).settle database state).1.FoundNothing command := by
        rintro ⟨⟨patterns, empty⟩, -⟩
        cases outcome.symm.trans empty
        cases stops.isEmpty
      exact ⟨.fails outcome other, left, fun nothing => absurd nothing other, nofun⟩

end Planner

namespace Command

/-- The command is about each name in a list. -/
inductive TakesNames (command : Command) : Prop where
  | schemas {verb : Verb} (root : command.root = verb.name) (named : command.object = some "schema")
  | items {verb : Verb} {items : ItemClass} {object : String} (root : command.root = verb.name)
      (named : command.object = some object)
      (singular : ItemClass.ofObject? object = some (items, false))
  | on {verb : Verb} {object : String} (root : command.root = verb.name)
      (named : command.object = some object)
      (known : object ∈ ["indexes", "constraints", "triggers"])
      (clause : command.clause = some .on)
  | schemaSeeds (root : command.root = "seed") (named : command.object = some "schema")
  | tableSeeds (root : command.root = "seed") (named : command.object = some "table")

/-- The commands differ in the names that they are about, and in how they are written. -/
structure Resembles (command whole : Command) : Prop where
  root : command.root = whole.root
  object : command.object = whole.object
  clause : command.clause = whole.clause
  seedNames : command.seedNames = whole.seedNames

/-- The names of the whole are those of the first and then those of the second. -/
structure Joins (whole first second : Command) : Prop where
  one : first.Resembles whole
  two : second.Resembles whole
  schemaNames : whole.schemaNames = first.schemaNames ++ second.schemaNames
  itemNames : whole.itemNames = first.itemNames ++ second.itemNames

/-- The names that a command is about. -/
def subjects (command : Command) : List String :=
  if command.object = some "schema" then command.schemaNames else command.itemNames

/-- The same command about one name. -/
def only (command : Command) (name : String) : Command :=
  { command with arguments :=
      ⟨"schema-names", .list [name]⟩ :: ⟨"item-names", .list [name]⟩ :: command.arguments }

variable {command whole : Command}

theorem only_resembles (name : String) : (command.only name).Resembles command :=
  ⟨rfl, rfl, rfl, rfl⟩

theorem only_schemaNames (name : String) : (command.only name).schemaNames = [name] := rfl

theorem only_itemNames (name : String) : (command.only name).itemNames = [name] := rfl

theorem Resembles.selectSeeds (resembles : command.Resembles whole) :
    command.selectSeeds = whole.selectSeeds := by
  funext files
  unfold Command.selectSeeds
  rw [resembles.clause, resembles.seedNames]

end Command

namespace Planner

variable {planner : Planner} {command whole : Command} {verb : Verb} {items : ItemClass}

theorem planSchemas_each (schemas : List String) : planner.planSchemas verb schemas =
    Draft.each (fun schema => planner.planSchemas verb [schema]) schemas := by
  unfold planSchemas
  refine Draft.each_congr fun schema _ => ?_
  rw [Draft.each_single]

theorem planListedItems_each
    (qualified : ∀ name ∈ command.itemNames, Name.IsQualified name) :
    planner.planListedItems command verb items =
      Draft.each (fun name => planner.planListedItems (whole.only name) verb items)
        command.itemNames := by
  refine Draft.each_congr fun name member => ?_
  obtain ⟨schema, item, split, -⟩ := qualified name member
  unfold planListedItems
  rw [Command.only_itemNames, Draft.each_single]
  simp only [Command.splitName, split]

theorem planOn_each {kinds : List FileKind} (clause : command.clause = some .on)
    (alike : whole.clause = some .on) (filled : command.itemNames ≠ [])
    (qualified : ∀ name ∈ command.itemNames, Name.IsQualified name) :
    planner.planOn command verb kinds =
      Draft.each (fun name => planner.planOn (whole.only name) verb kinds) command.itemNames := by
  have listed : ¬ (command.clause ≠ some .on ∨ command.itemNames = []) := by simp [clause, filled]
  have single (name : String) :
      ¬ ((whole.only name).clause ≠ some .on ∨ (whole.only name).itemNames = []) := by
    simp [Command.only_itemNames, (Command.only_resembles name).clause, alike]
  unfold planOn
  rw [if_neg listed]
  refine Draft.each_congr fun name member => ?_
  obtain ⟨schema, item, split, -⟩ := qualified name member
  rw [if_neg (single name), Command.only_itemNames, Draft.each_single]
  simp only [Command.splitName, split]

/-- The draft for the command, without the command itself. -/
def inner (planner : Planner) (command : Command) : Draft Unit :=
  match Verb.ofName? command.root with
  | some verb => planner.planObjects command verb
  | none => planner.planSeeds (planner.inlineFile depthLimit) command

theorem inner_verb (root : command.root = verb.name) :
    planner.inner command = planner.planObjects command verb := by
  unfold inner
  rw [root]
  cases verb <;> rfl

theorem inner_seed (root : command.root = "seed") :
    planner.inner command = planner.planSeeds (planner.inlineFile depthLimit) command := by
  unfold inner
  rw [root]
  rfl

theorem inner_entered (command : Command) : (planner.inner command).Entered := by
  have inlines := planner.inlineFile_entered depthLimit
  unfold inner
  split
  · exact (planner.planObjects_assembled command _).entered inlines
  · exact (planner.planSeeds_assembled command).entered inlines

/-- The kinds of files that stand for an object on tables or views. -/
def kindsOn (object : String) : List FileKind :=
  match object with
  | "indexes" => [.tableIndexes, .viewIndexes]
  | "constraints" => [.constraints]
  | _ => [.triggers]

theorem inner_schemas (command : Command) (root : command.root = verb.name)
    (named : command.object = some "schema") :
    planner.inner command = planner.planSchemas verb command.schemaNames := by
  rw [inner_verb root, planObjects, named]
  rfl

theorem inner_items (command : Command) {object : String} (root : command.root = verb.name)
    (named : command.object = some object)
    (singular : ItemClass.ofObject? object = some (items, false)) :
    planner.inner command = planner.planListedItems command verb items := by
  rw [inner_verb root, planObjects_items named singular, if_neg Bool.false_ne_true]

theorem inner_on (command : Command) {object : String} (root : command.root = verb.name)
    (named : command.object = some object)
    (known : object ∈ ["indexes", "constraints", "triggers"]) :
    planner.inner command = planner.planOn command verb (kindsOn object) := by
  simp only [List.mem_cons, List.not_mem_nil, or_false] at known
  rw [inner_verb root, planObjects, named]
  rcases known with rfl | rfl | rfl <;> rfl

theorem inner_schemaSeeds (command : Command) (root : command.root = "seed")
    (named : command.object = some "schema") :
    planner.inner command =
      Draft.each (planner.planSchemaSeeds (planner.inlineFile depthLimit) command)
        command.schemaNames := by
  rw [inner_seed root, planSeeds, named]
  rfl

theorem inner_tableSeeds (command : Command) (root : command.root = "seed")
    (named : command.object = some "table") :
    planner.inner command = Draft.each (fun name =>
      (command.splitName name).andThen fun pair =>
        (planner.resolve .tableSeeds none (some pair.1) (some pair.2)).andThen fun files =>
          planner.planTableSeeds (planner.inlineFile depthLimit) (command.selectSeeds files))
      command.itemNames := by
  rw [inner_seed root, planSeeds, named]
  rfl

/-- A command on listed names plans each name as if it stood alone. -/
theorem inner_each (takes : whole.TakesNames) (resembles : command.Resembles whole)
    (filled : command.subjects ≠ [])
    (qualified : ∀ name ∈ command.itemNames, Name.IsQualified name) :
    planner.inner command =
      Draft.each (fun name => planner.inner (whole.only name)) command.subjects := by
  have object := resembles.object
  unfold Command.subjects at filled ⊢
  cases takes with
  | schemas root named =>
      rw [if_pos (object.trans named),
        inner_schemas command (resembles.root.trans root) (object.trans named), planSchemas_each]
      exact Draft.each_congr fun name _ =>
        (inner_schemas (whole.only name) root named).symm
  | @items verb items _ root named singular =>
      have other : command.object ≠ some "schema" := by
        rw [object, named]
        rintro ⟨⟩
        cases singular
      rw [if_neg other,
        inner_items command (resembles.root.trans root) (object.trans named) singular,
        planListedItems_each qualified]
      exact Draft.each_congr fun name _ =>
        (inner_items (whole.only name) root named singular).symm
  | @on verb _ root named known clause =>
      have other : command.object ≠ some "schema" := by
        rw [object, named]
        rintro ⟨⟩
        revert known
        decide
      rw [if_neg other] at filled ⊢
      rw [inner_on command (resembles.root.trans root) (object.trans named) known,
        planOn_each (resembles.clause.trans clause) clause filled qualified]
      exact Draft.each_congr fun name _ =>
        (inner_on (whole.only name) root named known).symm
  | schemaSeeds root named =>
      rw [if_pos (object.trans named),
        inner_schemaSeeds command (resembles.root.trans root) (object.trans named)]
      refine Draft.each_congr fun name _ => ?_
      rw [inner_schemaSeeds (whole.only name) root named, Command.only_schemaNames,
        Draft.each_single]
      unfold planSchemaSeeds
      rw [resembles.selectSeeds, (Command.only_resembles name).selectSeeds]
  | tableSeeds root named =>
      have other : command.object ≠ some "schema" := by
        rw [object, named]
        decide
      rw [if_neg other, inner_tableSeeds command (resembles.root.trans root) (object.trans named)]
      refine Draft.each_congr fun name member => ?_
      obtain ⟨schema, item, split, -⟩ := qualified name member
      rw [inner_tableSeeds (whole.only name) root named, Command.only_itemNames,
        Draft.each_single]
      simp only [Command.splitName, split, Draft.done_andThen, resembles.selectSeeds,
        (Command.only_resembles name).selectSeeds]

theorem inner_tries (takes : whole.TakesNames) (name : String) :
    (planner.inner (whole.only name)).Tries := by
  have filled : [name] ≠ [] := List.cons_ne_nil _ _
  cases takes with
  | schemas root named =>
      rw [inner_schemas (whole.only name) root named]
      exact planSchemas_tries filled
  | items root named singular =>
      rw [inner_items (whole.only name) root named singular]
      exact planListedItems_tries filled
  | on root named known clause =>
      rw [inner_on (whole.only name) root named known]
      refine planOn_tries ?_
      unfold kindsOn
      split <;> exact List.cons_ne_nil _ _
  | schemaSeeds root named =>
      rw [inner_schemaSeeds (whole.only name) root named]
      exact .each filled fun schema => .andThen (resolve_tries _ _ _ _)
  | tableSeeds root named =>
      rw [inner_tableSeeds (whole.only name) root named]
      exact .each filled fun item => .after fun pair => .andThen (resolve_tries _ _ _ _)

theorem plan_inner (takes : whole.TakesNames) (root : command.root = whole.root) :
    planner.plan command = withSteps command (planner.inner command) := by
  have verbs {verb : Verb} (named : whole.root = verb.name) :
      planner.plan command = withSteps command (planner.inner command) := by
    rw [plan, planWith_verb _ (root.trans named), inner_verb (root.trans named)]
  have seeds (named : whole.root = "seed") :
      planner.plan command = withSteps command (planner.inner command) := by
    rw [plan_seed (root.trans named), inner_seed (root.trans named)]
  cases takes with
  | schemas root | items root | on root => exact verbs root
  | schemaSeeds root | tableSeeds root => exact seeds root

theorem subjects_ne_nil (takes : whole.TakesNames) (resembles : command.Resembles whole)
    {text : String} {commands : List Command}
    (parsed : Command.parse Grammar.builtin text = .ok commands) (member : command ∈ commands) :
    command.subjects ≠ [] := by
  have lists := Command.lists_of_parse parsed member
  have object := resembles.object
  unfold Command.subjects
  split
  · rename_i schema
    exact lists.schemas schema
  · rename_i other
    cases takes with
    | schemas _ named | schemaSeeds _ named => exact absurd (object.trans named) other
    | items _ named singular => exact lists.items _ _ (object.trans named) singular
    | tableSeeds _ named => exact lists.items _ _ (object.trans named) rfl
    | @on verb _ root named known =>
        have understood := Command.understood_of_parse parsed member
        have plannable := understood.plannable
        rw [resembles.root, root, object, named] at plannable
        refine understood.itemNames_ne_nil ?_
        simp only [List.mem_cons, List.not_mem_nil, or_false] at known
        cases verb <;> rcases known with rfl | rfl | rfl <;>
          simpa [Command.isPlannable, Command.namesObject, Verb.name, Verb.ofName?] using
            (Bool.and_eq_true_iff.mp plannable).2

theorem inner_each_tries (takes : whole.TakesNames) (resembles : command.Resembles whole)
    (filled : command.subjects ≠ [])
    (qualified : ∀ name ∈ command.itemNames, Name.IsQualified name) :
    (planner.inner command).Tries := by
  rw [inner_each takes resembles filled qualified]
  exact .each filled (inner_tries takes)

theorem inner_joins {first second : Command} (takes : whole.TakesNames)
    (joins : whole.Joins first second) (filled : first.subjects ≠ [])
    (others : second.subjects ≠ [])
    (qualified : ∀ name ∈ whole.itemNames, Name.IsQualified name) :
    planner.inner whole = (planner.inner first).andThen fun _ => planner.inner second := by
  have subjects : whole.subjects = first.subjects ++ second.subjects := by
    unfold Command.subjects
    rw [joins.one.object, joins.two.object]
    split
    · exact joins.schemaNames
    · exact joins.itemNames
  have all := List.forall_mem_append.mp (joins.itemNames ▸ qualified)
  have itself : whole.Resembles whole := ⟨rfl, rfl, rfl, rfl⟩
  rw [inner_each takes itself (by simp [subjects, filled]) qualified, subjects, Draft.each_append,
    ← inner_each takes joins.one filled all.1, ← inner_each takes joins.two others all.2]

theorem plan_settles (takes : whole.TakesNames) (root : command.root = whole.root)
    (tries : (planner.inner command).Tries) {State : Type} {database : Option (Database State)}
    {state after : State} {result : Except PlanError (List Step)}
    (settles : Draft.Settles database (planner.inner command) state result after) :
    ((planner.plan command).settle database state).1.Gains command result ∧
      ((planner.plan command).settle database state).2 = after ∧
      (((planner.plan command).settle database state).1.FoundNothing command ↔
        result = .ok []) := by
  rw [plan_inner takes root]
  exact withSteps_settles tries (inner_entered command) settles

/-- Planning a list of names and another is planning the one and then the other. A part that comes
to nothing adds no step, and the whole comes to nothing just if both parts do; any other error is
that of the first part that has one. -/
theorem plan_joins {first second : Command} (takes : whole.TakesNames)
    (joins : whole.Joins first second) {one two : String} {ones twos : List Command}
    (parsed : Command.parse Grammar.builtin one = .ok ones) (member : first ∈ ones)
    (also : Command.parse Grammar.builtin two = .ok twos) (among : second ∈ twos)
    {State : Type} (database : Option (Database State)) (state : State) :
    let start := (planner.plan first).settle database state
    let rest := (planner.plan second).settle database start.2
    let both := (planner.plan whole).settle database state
    ∃ early late, start.1.Gains first early ∧ rest.1.Gains second late ∧
      both.1.Gains whole (early.bind fun steps => late.map (steps ++ ·)) ∧
      (both.1.FoundNothing whole ↔ start.1.FoundNothing first ∧ rest.1.FoundNothing second) := by
  intro start rest both
  have filled := subjects_ne_nil takes joins.one parsed member
  have others := subjects_ne_nil takes joins.two also among
  have firstNames : ∀ name ∈ first.itemNames, Name.IsQualified name :=
    fun _ => (Command.understood_of_parse parsed member).itemNames_isQualified
  have secondNames : ∀ name ∈ second.itemNames, Name.IsQualified name :=
    fun _ => (Command.understood_of_parse also among).itemNames_isQualified
  have allNames : ∀ name ∈ whole.itemNames, Name.IsQualified name :=
    joins.itemNames ▸ List.forall_mem_append.mpr ⟨firstNames, secondNames⟩
  have joined : planner.inner whole =
      (planner.inner first).andThen fun _ => planner.inner second :=
    inner_joins takes joins filled others allNames
  have tries : (planner.inner first).Tries := inner_each_tries takes joins.one filled firstNames
  have later : (planner.inner second).Tries := inner_each_tries takes joins.two others secondNames
  -- the second part goes on from where the first has left the database
  obtain ⟨early, middle, started⟩ := Draft.settles database (planner.inner first) state
  obtain ⟨gains, left, nothing⟩ := plan_settles takes joins.one.root tries started
  obtain ⟨late, after, ended⟩ := Draft.settles database (planner.inner second) middle
  obtain ⟨more, -, none⟩ := plan_settles takes joins.two.root later ended
  obtain ⟨last, together⟩ := started.andThen ended
  rw [← joined] at together
  obtain ⟨all, -, neither⟩ := plan_settles takes rfl (joined ▸ tries.andThen) together
  have same : rest = (planner.plan second).settle database middle := by
    unfold rest start
    rw [left]
  refine ⟨early, late, gains, same ▸ more, all, ?_⟩
  rw [neither, nothing, same, none]
  cases early <;> cases late <;> simp [Except.bind, Except.map]

def createListedTables (names : List String) (text : String) : Command :=
  ⟨"create", ["create", "table"], some "table", none, [⟨"item-names", .list names⟩], none, text, 1⟩

theorem plan_joins_users :
    let first := createListedTables ["app.users"] "create table app.users"
    let second := createListedTables ["app.gone"] "create table app.gone"
    let whole := createListedTables ["app.users", "app.gone"] "create table app.users,app.gone"
    let planned (command : Command) :=
      ((dotted.plan command).settle (none : Option (Database Unit)) ()).1
    Command.parse Grammar.builtin whole.text = .ok [whole] ∧ whole.TakesNames ∧
      whole.Joins first second ∧ Command.parse Grammar.builtin first.text = .ok [first] ∧
      Command.parse Grammar.builtin second.text = .ok [second] ∧
      ∃ early late, (planned first).Gains first early ∧ (planned second).Gains second late ∧
        (planned whole).Gains whole (early.bind fun steps => late.map (steps ++ ·)) ∧
        ((planned whole).FoundNothing whole ↔
          (planned first).FoundNothing first ∧ (planned second).FoundNothing second) := by
  intro first second whole planned
  have parsed : Command.parse Grammar.builtin first.text = .ok [first] := by decide +kernel
  have also : Command.parse Grammar.builtin second.text = .ok [second] := by decide +kernel
  have root : whole.root = Verb.create.name := rfl
  have takes : whole.TakesNames := .items root rfl rfl
  have joins : whole.Joins first second := ⟨⟨rfl, rfl, rfl, rfl⟩, ⟨rfl, rfl, rfl, rfl⟩, rfl, rfl⟩
  exact ⟨by decide +kernel, takes, joins, parsed, also,
    plan_joins takes joins parsed List.mem_cons_self also List.mem_cons_self none ()⟩

end Planner

end Rollout
