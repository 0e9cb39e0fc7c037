import Rollout.Plan.Objects
import Rollout.Proofs.Plan.Planner

/-!
Planning to create, drop, grant or revoke does not blame a command that was understood, and
records only files that were found.
-/

namespace Rollout

namespace ItemClass

theorem isScripts_primary (items : ItemClass) : items.primary.isScripts = true := by
  cases items <;> rfl

theorem isScripts_privileges (items : ItemClass) : items.privileges.isScripts = true := by
  cases items <;> rfl

theorem isScripts_attachments (items : ItemClass) :
    ∀ kind ∈ items.attachments, kind.isScripts = true := by
  cases items <;> decide

end ItemClass

namespace Planner

variable {planner : Planner}

/-- With all values given there is a pattern, whatever they are. -/
theorem emitFound_item_sound {kind : FileKind} (scripts : kind.isScripts = true) (verb : Verb)
    (schema item : String) :
    planner.Sound (fun _ => True) (planner.emitFound kind verb (some schema) (some item)) :=
  emitFound_sound verb scripts fun verb => FileKind.render_some kind verb schema item

theorem emit_item_sound {kind : FileKind} (scripts : kind.isScripts = true) (verb : Verb)
    (schema item : String) :
    planner.Sound (fun _ => True) (planner.emit kind verb (some schema) (some item)) :=
  emit_sound verb scripts fun verb => FileKind.render_some kind verb schema item

theorem planSchemas_sound (verb : Verb) {schemas : List String}
    (fits : ∀ schema ∈ schemas, Fits schema) :
    planner.Sound (fun _ => True) (planner.planSchemas verb schemas) := by
  refine .each fun schema member => ?_
  have rendered : ∀ {kind : FileKind}, kind.isOfSchema = true → ∀ verb : Verb,
      ∃ pattern, kind.render (some verb) (some schema) none = .ok pattern :=
    fun ofSchema verb => FileKind.render_ofSchema ofSchema verb (fits schema member).free
  have privileges : ∀ verb : Verb, planner.Sound (fun _ => True)
      (planner.emit .schemaPrivileges verb (some schema) none) :=
    fun verb => emit_sound verb rfl (rendered rfl)
  split
  · exact privileges verb
  · refine .andThen (emitFound_sound verb rfl (rendered rfl)) fun _ _ => ?_
    split
    · exact privileges verb
    · exact .done trivial

theorem attach_sound (items : ItemClass) (schema item : String) :
    planner.Sound (fun _ => True) (planner.attach items schema item) :=
  .each fun kind member => emit_item_sound (items.isScripts_attachments kind member) .create _ _

theorem planForeignKeys_sound (verb : Verb) {schemas : List String}
    (fits : ∀ schema ∈ schemas, Fits schema) :
    planner.Sound (fun _ => True) (planner.planForeignKeys verb schemas) :=
  .each fun schema member => emit_sound verb rfl fun verb =>
    FileKind.render_ofSchema rfl verb (fits schema member).free

theorem itemsOf_sound (orderly : planner.snapshot.Orderly) (items : ItemClass) (schema : String)
    (found : List String) :
    planner.Sound (fun _ => True) (planner.itemsOf items schema found) := by
  cases items
  case type => exact .done trivial
  all_goals exact (folderNames_sound orderly _).weaken fun _ _ => trivial

theorem planSchemaItems_sound (orderly : planner.snapshot.Orderly) (verb : Verb)
    (items : ItemClass) (schema : String) :
    planner.Sound (fun _ => True) (planner.planSchemaItems verb items schema) := by
  unfold planSchemaItems
  split
  · exact emit_item_sound items.isScripts_privileges verb _ _
  · refine .andThen (emitFound_item_sound items.isScripts_primary verb _ _) fun found _ => ?_
    split
    · exact .andThen (itemsOf_sound orderly items schema found) fun names _ =>
        .each fun item _ => attach_sound items schema item
    · exact .done trivial

theorem planAllItems_sound (orderly : planner.snapshot.Orderly) (command : Command) (verb : Verb)
    (items : ItemClass) :
    planner.Sound (fun _ => True) (planner.planAllItems command verb items) := by
  refine .andThen (schemas_sound orderly) fun all fits => ?_
  have left : ∀ schema ∈ command.filterSchemas all, Fits schema :=
    fun schema member => fits schema (Command.mem_filterSchemas member)
  have each : planner.Sound (fun _ => True)
      (Draft.each (planner.planSchemaItems verb items) (command.filterSchemas all)) :=
    .each fun schema _ => planSchemaItems_sound orderly verb items schema
  have keys : planner.Sound (fun _ => True)
      (planner.planForeignKeys verb (command.filterSchemas all)) := planForeignKeys_sound verb left
  dsimp only
  split
  · refine .andThen keys fun _ _ => .andThen each fun _ _ => ?_
    split
    · exact keys
    · exact .done trivial
  · refine .andThen each fun _ _ => ?_
    split
    · exact keys
    · exact .done trivial

theorem attachFound_sound (items : ItemClass) (found : List String) :
    planner.Sound (fun _ => True) (planner.attachFound items found) := by
  refine .each fun path _ => ?_
  split
  · exact attach_sound items _ _
  · exact .done trivial

theorem planListedItems_sound {command : Command} (understood : command.Understood) (verb : Verb)
    (items : ItemClass) :
    planner.Sound (fun _ => True) (planner.planListedItems command verb items) := by
  refine .each fun name member => ?_
  have qualified := understood.itemNames_isQualified member
  refine .andThen (Command.splitName_sound qualified) fun pair _ => ?_
  dsimp only
  split
  · exact emit_item_sound items.isScripts_privileges verb _ _
  · refine .andThen (emitFound_item_sound items.isScripts_primary verb _ _) fun found _ => ?_
    split
    · exact attachFound_sound items found
    · exact .done trivial

theorem planOn_sound {command : Command} (understood : command.Understood) (verb : Verb)
    {kinds : List FileKind} (scripts : ∀ kind ∈ kinds, kind.isScripts = true)
    (clause : command.clause = some .on)
    (slots : "item-names" ∈ command.arguments.map (·.slot)) :
    planner.Sound (fun _ => True) (planner.planOn command verb kinds) := by
  unfold planOn
  rw [if_neg (by simp [clause, understood.itemNames_ne_nil slots])]
  refine .each fun name member => ?_
  have qualified := understood.itemNames_isQualified member
  refine .andThen (Command.splitName_sound qualified) fun pair _ => ?_
  exact .each fun kind among => emit_item_sound (scripts kind among) verb _ _

theorem planObjects_sound (orderly : planner.snapshot.Orderly) {command : Command}
    (understood : command.Understood) (verb : Verb)
    (named : Command.namesObject command.object command.clause
      (command.arguments.map (·.slot)) = true) :
    planner.Sound (fun _ => True) (planner.planObjects command verb) := by
  have ofDatabase : ∀ {kind : FileKind}, kind.isOfDatabase = true → ∀ verb : Verb,
      ∃ pattern, kind.render (some verb) none none = .ok pattern :=
    fun ofDatabase verb => FileKind.render_ofDatabase ofDatabase verb
  have schemaNames : ∀ schema ∈ command.schemaNames, Fits schema := fun schema member =>
    .of_part (.inr (understood.schemaNames_isIdentifier member))
  have onItems : ∀ {kinds : List FileKind}, (∀ kind ∈ kinds, kind.isScripts = true) →
      (command.clause == some .on &&
        (command.arguments.map (·.slot)).contains "item-names") = true →
      planner.Sound (fun _ => True) (planner.planOn command verb kinds) := by
    intro kinds scripts shape
    obtain ⟨clause, slots⟩ := Bool.and_eq_true_iff.mp shape
    exact planOn_sound understood verb scripts (by simpa using clause) (by simpa using slots)
  unfold planObjects
  -- the objects in the order in which they are told apart, `none` first
  split
  · rename_i none
    simp [none, Command.namesObject] at named
  · dsimp only
    split <;> exact emit_sound verb rfl (ofDatabase rfl)
  · exact emit_sound verb rfl (ofDatabase rfl)
  · exact emit_sound verb rfl (ofDatabase rfl)
  · exact .andThen (schemas_sound orderly) fun all fits => planForeignKeys_sound verb fits
  · exact .andThen (schemas_sound orderly) fun all fits => planSchemas_sound verb
      fun schema member => fits schema (Command.mem_filterSchemas member)
  · exact planSchemas_sound verb schemaNames
  · rename_i object
    exact onItems (by decide) (by simpa [object, Command.namesObject] using named)
  · rename_i object
    exact onItems (by decide) (by simpa [object, Command.namesObject] using named)
  · rename_i object
    exact onItems (by decide) (by simpa [object, Command.namesObject] using named)
  · split
    · exact planAllItems_sound orderly command verb _
    · exact planListedItems_sound understood verb _
    · -- no other object is left that can be named
      unfold Command.namesObject at named
      split at named <;> simp_all

end Planner

end Rollout
