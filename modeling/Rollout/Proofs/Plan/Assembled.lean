import Rollout.Plan.Basic
import Rollout.Proofs.Step.Block

/-!
What the drafts of commands are put together from. Every planning function does no more than ask the
source tree, note patterns, plan to do something with what it found, and have a file of commands
inlined; so what these keep, all of planning keeps.
-/

namespace Rollout

/-- Was nothing found, or no schema left to find anything in? -/
def PlanError.isEmpty : PlanError → Bool
  | noMatch _ _ | noSchemas _ _ => true
  | _ => false

namespace Planner

/-- Whatever file the step is about is recorded at the ref of the planner. -/
def Refers (planner : Planner) (step : Step) : Prop :=
  ∀ file, step.file? = some file → file.ref = planner.ref

/-- Drafts that are put together from parts, one after the other. -/
inductive Assembled (planner : Planner) (inlined : FileRef → Draft Unit) :
    {Value : Type} → Draft Value → Prop where
  | done {Value : Type} (value : Value) : Assembled planner inlined (.done value)
  | fail {Value : Type} {error : PlanError} (filled : error.isEmpty = false) :
      Assembled planner inlined (.fail error : Draft Value)
  | ofSource {Value : Type} (result : Except SourceError Value) :
      Assembled planner inlined (.ofSource result)
  | tried (pattern : String) : Assembled planner inlined (Draft.tried pattern)
  | work {step : Step} (works : step.isWork = true) (refers : planner.Refers step) :
      Assembled planner inlined (Draft.step step)
  | inlined (path : String) : Assembled planner inlined (inlined (planner.file path))
  | andThen {Value Next : Type} {draft : Draft Value} {next : Value → Draft Next}
      (first : Assembled planner inlined draft)
      (rest : ∀ value, Assembled planner inlined (next value)) :
      Assembled planner inlined (draft.andThen next)

variable (planner : Planner) {inlined : FileRef → Draft Unit}

namespace Assembled

variable {planner}

theorem each {Value : Type} {draft : Value → Draft Unit}
    (all : ∀ value, planner.Assembled inlined (draft value)) (list : List Value) :
    planner.Assembled inlined (Draft.each draft list) := by
  induction list with
  | nil => exact .done ()
  | cons value rest ih => exact .andThen (all value) fun _ => ih

/-- Work on a file that the planner has found. -/
theorem file {step : Step} {path : String} (works : step.isWork = true)
    (about : step.file? = some (planner.file path)) :
    planner.Assembled inlined (Draft.step step) := by
  refine .work works fun file same => ?_
  rw [about] at same
  cases same
  rfl

theorem plain {step : Step} (works : step.isWork = true) (plain : step.file? = none) :
    planner.Assembled inlined (Draft.step step) := by
  refine .work works fun file same => ?_
  rw [plain] at same
  cases same

end Assembled

theorem resolve_assembled (kind : FileKind) (verb : Option Verb) (schema item : Option String) :
    planner.Assembled inlined (planner.resolve kind verb schema item) := by
  simp only [resolve]
  split
  · exact .fail rfl
  · exact .andThen (.ofSource _) fun found => .andThen (.tried _) fun _ => .done found

theorem emitFound_assembled (kind : FileKind) (verb : Verb) (schema item : Option String) :
    planner.Assembled inlined (planner.emitFound kind verb schema item) :=
  .andThen (planner.resolve_assembled kind verb schema item) fun found =>
    .andThen (.each (fun _ => .file rfl rfl) found) fun _ => .done found

theorem emit_assembled (kind : FileKind) (verb : Verb) (schema item : Option String) :
    planner.Assembled inlined (planner.emit kind verb schema item) :=
  .andThen (planner.emitFound_assembled kind verb schema item) fun _ => .done ()

theorem schemas_assembled : planner.Assembled inlined planner.schemas := .ofSource _

theorem splitName_assembled (command : Command) (name : String) :
    planner.Assembled inlined (command.splitName name) := by
  unfold Command.splitName
  split
  · exact .done _
  · exact .fail rfl

theorem planSchemas_assembled (verb : Verb) (schemas : List String) :
    planner.Assembled inlined (planner.planSchemas verb schemas) := by
  apply Assembled.each
  intro schema
  split
  · exact planner.emit_assembled _ _ _ _
  · apply Assembled.andThen (planner.emitFound_assembled _ _ _ _)
    intro created
    split
    · exact planner.emit_assembled _ _ _ _
    · exact .done ()

theorem attach_assembled (items : ItemClass) (schema item : String) :
    planner.Assembled inlined (planner.attach items schema item) :=
  .each (fun _ => planner.emit_assembled _ _ _ _) _

theorem planForeignKeys_assembled (verb : Verb) (schemas : List String) :
    planner.Assembled inlined (planner.planForeignKeys verb schemas) :=
  .each (fun _ => planner.emit_assembled _ _ _ _) schemas

theorem itemsOf_assembled (items : ItemClass) (schema : String) (found : List String) :
    planner.Assembled inlined (planner.itemsOf items schema found) := by
  cases items
  case type => exact .done _
  all_goals exact .ofSource _

theorem planSchemaItems_assembled (verb : Verb) (items : ItemClass) (schema : String) :
    planner.Assembled inlined (planner.planSchemaItems verb items schema) := by
  unfold planSchemaItems
  split
  · exact planner.emit_assembled _ _ _ _
  · apply Assembled.andThen (planner.emitFound_assembled _ _ _ _)
    intro found
    split
    · exact .andThen (planner.itemsOf_assembled items schema found)
        (.each fun item => planner.attach_assembled items schema item)
    · exact .done ()

theorem planAllItems_assembled (command : Command) (verb : Verb) (items : ItemClass) :
    planner.Assembled inlined (planner.planAllItems command verb items) := by
  apply Assembled.andThen planner.schemas_assembled
  intro all
  have keys : planner.Assembled inlined
      (planner.planForeignKeys verb (command.filterSchemas all)) :=
    planner.planForeignKeys_assembled verb _
  have each : planner.Assembled inlined
      (Draft.each (planner.planSchemaItems verb items) (command.filterSchemas all)) :=
    .each (planner.planSchemaItems_assembled verb items) _
  have afterKeys : planner.Assembled inlined (if items = .table ∧ verb = .create then
      planner.planForeignKeys verb (command.filterSchemas all) else pure ()) := by
    split
    · exact keys
    · exact .done ()
  dsimp only
  split
  · exact .andThen keys fun _ => .andThen each fun _ => afterKeys
  · exact .andThen each fun _ => afterKeys

theorem attachFound_assembled (items : ItemClass) (found : List String) :
    planner.Assembled inlined (planner.attachFound items found) := by
  apply Assembled.each
  intro path
  split
  · exact planner.attach_assembled items _ _
  · exact .done ()

theorem planListedItems_assembled (command : Command) (verb : Verb) (items : ItemClass) :
    planner.Assembled inlined (planner.planListedItems command verb items) := by
  apply Assembled.each
  intro name
  apply Assembled.andThen (planner.splitName_assembled command name)
  rintro ⟨schema, item⟩
  dsimp only
  split
  · exact planner.emit_assembled _ _ _ _
  · apply Assembled.andThen (planner.emitFound_assembled _ _ _ _)
    intro found
    split
    · exact planner.attachFound_assembled items found
    · exact .done ()

theorem planOn_assembled (command : Command) (verb : Verb) (kinds : List FileKind) :
    planner.Assembled inlined (planner.planOn command verb kinds) := by
  unfold planOn
  split
  · exact .fail rfl
  · apply Assembled.each
    intro name
    apply Assembled.andThen (planner.splitName_assembled command name)
    rintro ⟨schema, item⟩
    exact .each (fun kind => planner.emit_assembled _ _ _ _) kinds

theorem planObjects_assembled (command : Command) (verb : Verb) :
    planner.Assembled inlined (planner.planObjects command verb) := by
  unfold planObjects
  -- the objects in the order in which they are told apart, `none` first
  split
  · exact .fail rfl
  · exact planner.emit_assembled _ _ _ _
  · exact planner.emit_assembled _ _ _ _
  · exact planner.emit_assembled _ _ _ _
  · exact .andThen planner.schemas_assembled (planner.planForeignKeys_assembled verb)
  · exact .andThen planner.schemas_assembled fun all => planner.planSchemas_assembled verb _
  · exact planner.planSchemas_assembled verb _
  · exact planner.planOn_assembled command verb _
  · exact planner.planOn_assembled command verb _
  · exact planner.planOn_assembled command verb _
  · split
    · exact planner.planAllItems_assembled command verb _
    · exact planner.planListedItems_assembled command verb _
    · exact .fail rfl

theorem planScript_assembled (command : Command) :
    planner.Assembled inlined (planner.planScript command) := by
  unfold planScript
  split
  · exact .plain rfl rfl
  · apply Assembled.andThen (.tried _)
    intro _
    apply Assembled.andThen (.ofSource _)
    intro found
    split
    · exact .file rfl rfl
    · exact .done ()
  · exact .fail rfl

theorem planSeedFile_assembled (target : Option (String × String)) (path : String) :
    planner.Assembled inlined (planner.planSeedFile inlined target path) := by
  unfold planSeedFile
  split
  · exact .file rfl rfl
  · exact .file rfl rfl
  · exact .file rfl rfl
  · exact .inlined path
  · exact .fail rfl

theorem planSchemaSeeds_assembled (command : Command) (schema : String) :
    planner.Assembled inlined (planner.planSchemaSeeds inlined command schema) :=
  .andThen (planner.resolve_assembled _ _ _ _) fun _ =>
    .each (fun path => planner.planSeedFile_assembled _ path) _

theorem planTableSeeds_assembled (files : List String) :
    planner.Assembled inlined (planner.planTableSeeds inlined files) :=
  .each (fun path => planner.planSeedFile_assembled _ path) files

theorem planSeeds_assembled (command : Command) :
    planner.Assembled inlined (planner.planSeeds inlined command) := by
  unfold planSeeds
  -- the objects in the order in which they are told apart
  split
  · exact .andThen (planner.resolve_assembled _ _ _ _) fun files =>
      .each (planner.planSeedFile_assembled none) _
  · exact .each (planner.planSchemaSeeds_assembled command) _
  · exact .andThen planner.schemas_assembled fun all =>
      .each (planner.planSchemaSeeds_assembled command) _
  · apply Assembled.each
    intro name
    apply Assembled.andThen (planner.splitName_assembled command name)
    rintro ⟨schema, item⟩
    exact .andThen (planner.resolve_assembled _ _ _ _) fun files =>
      planner.planTableSeeds_assembled _
  · apply Assembled.andThen planner.schemas_assembled
    intro all
    apply Assembled.each
    intro schema
    exact .andThen (planner.resolve_assembled _ _ _ _) planner.planTableSeeds_assembled
  · split
    · exact .plain rfl rfl
    · exact .fail rfl
  · exact planner.planScript_assembled command
  · exact .fail rfl

end Planner

end Rollout
