import Rollout.Proofs.Plan.Emitted

/-!
Which commands try a pattern. One that names what it is about tries one for each name; one on all of
a class, or on all schemas, tries one for each schema of the tree that its clause leaves.
-/

namespace Rollout

namespace Command

/-- Does the object stand for something in every schema of the tree? -/
def listsSchemas (command : Command) : Bool :=
  match command.object with
  | some "schemas" | some "foreign-keys" => true
  | some object =>
      match ItemClass.ofObject? object with
      | some (_, plural) => plural
      | none => false
  | none => false

end Command

namespace Planner

variable {planner : Planner} {verb : Verb} {items : ItemClass} {schemas : List String}
  {command : Command}

theorem resolve_tries (kind : FileKind) (verb : Option Verb) (schema item : Option String) :
    (planner.resolve kind verb schema item).Tries := by
  simp only [resolve]
  split
  · exact .fail _
  · exact .after fun found => .andThen (.tried _)

theorem emitFound_tries (kind : FileKind) (verb : Verb) (schema item : Option String) :
    (planner.emitFound kind verb schema item).Tries :=
  .andThen (resolve_tries kind (some verb) schema item)

theorem emit_tries (kind : FileKind) (verb : Verb) (schema item : Option String) :
    (planner.emit kind verb schema item).Tries :=
  .andThen (emitFound_tries kind verb schema item)

theorem planSchemas_tries (filled : schemas ≠ []) : (planner.planSchemas verb schemas).Tries := by
  refine .each filled fun schema => ?_
  split
  · exact emit_tries _ _ _ _
  · exact .andThen (emitFound_tries _ _ _ _)

theorem planForeignKeys_tries (filled : schemas ≠ []) :
    (planner.planForeignKeys verb schemas).Tries :=
  .each filled fun _ => emit_tries _ _ _ _

theorem planSchemaItems_tries (schema : String) :
    (planner.planSchemaItems verb items schema).Tries := by
  unfold planSchemaItems
  split
  · exact emit_tries _ _ _ _
  · exact .andThen (emitFound_tries _ _ _ _)

theorem planListedItems_tries (filled : command.itemNames ≠ []) :
    (planner.planListedItems command verb items).Tries := by
  refine .each filled fun name => .after fun pair => ?_
  dsimp only
  split
  · exact emit_tries _ _ _ _
  · exact .andThen (emitFound_tries _ _ _ _)

theorem planOn_tries {kinds : List FileKind} (filled : kinds ≠ []) :
    (planner.planOn command verb kinds).Tries := by
  unfold planOn
  split
  · exact .fail _
  · rename_i listed
    refine .each (fun none => listed (.inr none)) fun name => .after fun pair => ?_
    exact .each filled fun kind => emit_tries _ _ _ _

theorem withSteps_outcome {draft : Draft Unit} (ended : draft.outcome = .ok ()) :
    (withSteps command draft).outcome =
      if draft.events.any (·.isStep) then .ok ()
      else if draft.patterns = [] then .error (.noSchemas command.text command.schemaFilter)
      else .error (.noMatch command.text (Text.orderedSet draft.patterns)) := by
  unfold withSteps
  dsimp only
  rw [ended]
  dsimp only
  split
  · rfl
  · split <;> rfl

section Listed

variable {all : List String} (listed : planner.schemas = .ofSource (.ok all))

include listed

theorem planAllItems_tries (left : command.filterSchemas all ≠ []) :
    (planner.planAllItems command verb items).Tries := by
  unfold planAllItems
  simp only [listed, Draft.bind_eq, Draft.ofSource_andThen]
  have each : (Draft.each (planner.planSchemaItems verb items) (command.filterSchemas all)).Tries :=
    .each left planSchemaItems_tries
  split
  · exact .andThen (planForeignKeys_tries left)
  · exact .andThen each

theorem planAllItems_none (none : command.filterSchemas all = []) :
    planner.planAllItems command verb items = .done () := by
  unfold planAllItems
  simp only [listed, Draft.bind_eq, Draft.ofSource_andThen, none]
  split <;> split <;> rfl

/-- A command on all schemas tries a pattern if its clause leaves one, and any other does anyway. -/
theorem planObjects_tries (lists : command.Lists)
    (left : command.listsSchemas = true → command.filterSchemas all ≠ []) :
    (planner.planObjects command verb).Tries := by
  unfold planObjects
  -- the objects in the order in which they are told apart, `none` first
  split
  · exact .fail _
  · exact emit_tries _ _ _ _
  · exact emit_tries _ _ _ _
  · exact emit_tries _ _ _ _
  · rename_i object
    rw [listed]
    refine planForeignKeys_tries fun none => left (by simp [Command.listsSchemas, object]) ?_
    rw [none, Command.filterSchemas_eq, List.filter_nil]
  · rename_i object
    rw [listed]
    exact planSchemas_tries (left (by simp [Command.listsSchemas, object]))
  · rename_i object
    exact planSchemas_tries (lists.schemas object)
  · exact planOn_tries (List.cons_ne_nil _ _)
  · exact planOn_tries (List.cons_ne_nil _ _)
  · exact planOn_tries (List.cons_ne_nil _ _)
  · rename_i named
    split
    · rename_i known
      exact planAllItems_tries listed (left (by simp [Command.listsSchemas, named, known]))
    · rename_i known
      exact planListedItems_tries (lists.items _ _ named known)
    · exact .fail _

theorem planObjects_none (lists : command.Lists) (root : command.root = verb.name)
    (all_schemas : command.listsSchemas = true) (none : command.filterSchemas all = []) :
    planner.planObjects command verb = .done () := by
  unfold Command.listsSchemas at all_schemas
  split at all_schemas
  · rename_i named
    unfold planObjects
    rw [named, listed]
    exact congrArg (planner.planSchemas verb) none
  · rename_i named
    have bare : command.clause = .none :=
      lists.foreignKeys verb (by rw [root]; cases verb <;> rfl) named
    rw [planObjects_foreignKeys named, listed]
    rw [Command.filterSchemas_bare bare] at none
    subst none
    rfl
  · split at all_schemas
    · rename_i named _ _ plural known
      subst all_schemas
      rw [planObjects_items named known, if_pos rfl]
      exact planAllItems_none listed none
    · cases all_schemas
  · cases all_schemas

/-- No pattern is tried just if the command is on all schemas and its clause leaves none. -/
theorem planObjects_untried_iff (lists : command.Lists) (root : command.root = verb.name)
    (ended : (planner.planObjects command verb).outcome = .ok ()) :
    (planner.planObjects command verb).patterns = [] ↔
      command.listsSchemas = true ∧ command.filterSchemas all = [] := by
  constructor
  · intro untried
    by_contra other
    exact planObjects_tries listed lists (fun plural none => other ⟨plural, none⟩) () ended untried
  · rintro ⟨plural, none⟩
    rw [planObjects_none listed lists root plural none]
    rfl

end Listed

end Planner

end Rollout
