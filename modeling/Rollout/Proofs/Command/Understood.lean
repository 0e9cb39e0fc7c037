import Rollout.Grammar.Builtin
import Rollout.Layout
import Rollout.Step
import Rollout.Proofs.Command.Parser

/-!
The commands that can be planned. Every chain of keywords at which a statement of the built-in
grammar may end spells one.
-/

namespace Rollout.Command

/-- Can what this object names be created, dropped, granted or revoked? -/
def namesObject (object : Option String) (clause : Option Clause) (slots : List String) : Bool :=
  match object with
  | some "database" | some "roles" | some "extensions" | some "foreign-keys" | some "schemas"
  | some "schema" => true
  | some "indexes" | some "constraints" | some "triggers" =>
      clause == some .on && slots.contains "item-names"
  | some object => (ItemClass.ofObject? object).isSome
  | none => false

/-- Can what this object names be seeded? -/
def namesSeeds (object : Option String) (slots : List String) : Bool :=
  match object with
  | some "database" | some "schema" | some "schemas" | some "table" | some "tables" => true
  | some "cmd" => slots.contains "cmd"
  | some "sql" => slots.contains "sql"
  | _ => false

/-- Do these make a command that can be planned? The slots are given by name. -/
def isPlannable (root : String) (object : Option String) (clause : Option Clause)
    (slots : List String) : Bool :=
  match root with
  | "begin" | "commit" | "rollback" => true
  | "list" => (object.bind ListKind.ofName?).isSome
  | "sql" => slots.contains "sql"
  | "seed" => namesSeeds object slots
  | root => (Verb.ofName? root).isSome && namesObject object clause slots

/-- A command that can be planned, with a value that fits in each of its slots. -/
structure Understood (command : Command) : Prop where
  plannable : isPlannable command.root command.object command.clause
    (command.arguments.map (·.slot)) = true
  values : ∀ argument ∈ command.arguments,
    ∃ kind, Slot.Kind.ofName? argument.slot = some kind ∧ kind.Admits argument.value

/-- The planner covers the grammar. -/
theorem builtin_covers : ∀ trail ∈ Grammar.builtin.trails [], trail.2.mayEnd = true →
    isPlannable ((trail.1.map (·.name)).reverse.headD "")
        ((Match.objectOf [] trail.1).map (·.1))
        ((Match.objectOf [] trail.1).bind fun (_, after) => Clause.ofKeywords? after)
        ((slotsOf trail.1).map (·.name)) = true ∧
      ∀ slot ∈ slotsOf trail.1, Slot.Kind.ofName? slot.name = some slot.kind := by
  decide +kernel

theorem understood_of_parse {text : String} {commands : List Command}
    (parsed : parse Grammar.builtin text = .ok commands) {command : Command}
    (member : command ∈ commands) : command.Understood := by
  obtain ⟨trail, led, ends, spells⟩ := parse_spells parsed member
  obtain ⟨plannable, kinds⟩ := builtin_covers trail led ends
  refine ⟨?_, fun argument within => ?_⟩
  · rw [spells.root, spells.object, spells.clause, spells.fill.names]
    exact plannable
  · obtain ⟨slot, held, named, fits⟩ := spells.fill.values argument within
    exact ⟨slot.kind, by rw [named]; exact kinds slot held, fits⟩

namespace Understood

variable {command : Command} (understood : command.Understood)

include understood

/-- A command with a verb is about something that it can be used on. -/
theorem namesObject {verb : Verb} (root : command.root = verb.name) :
    Command.namesObject command.object command.clause (command.arguments.map (·.slot)) = true := by
  have plannable := understood.plannable
  rw [root] at plannable
  cases verb <;> simpa [isPlannable, Verb.name, Verb.ofName?] using plannable

theorem value_admits {slot : String} {value : Value} (held : command.value? slot = some value) :
    ∃ kind, Slot.Kind.ofName? slot = some kind ∧ kind.Admits value := by
  obtain ⟨argument, found, rfl⟩ := Option.map_eq_some_iff.mp held
  have named : argument.slot = slot := by simpa using List.find?_some found
  rw [← named]
  exact understood.values argument (List.mem_of_find?_eq_some found)

omit understood in
theorem value_of_mem {slot : String} (member : slot ∈ command.arguments.map (·.slot)) :
    ∃ value, command.value? slot = some value := by
  obtain ⟨argument, within, rfl⟩ := List.mem_map.mp member
  have found : (command.arguments.find? (·.slot == argument.slot)).isSome = true :=
    List.find?_isSome.mpr ⟨argument, within, by simp⟩
  obtain ⟨first, same⟩ := Option.isSome_iff_exists.mp found
  exact ⟨first.value, by simp [value?, same]⟩

theorem schemaNames_isIdentifier {name : String} (member : name ∈ command.schemaNames) :
    Name.isIdentifier name = true := by
  unfold schemaNames names at member
  split at member
  · rename_i listed held
    obtain ⟨kind, known, admitted⟩ := understood.value_admits held
    cases known
    exact admitted.2 name member
  · cases member

theorem itemNames_isQualified {name : String} (member : name ∈ command.itemNames) :
    Name.IsQualified name := by
  unfold itemNames names at member
  split at member
  · rename_i listed held
    obtain ⟨kind, known, admitted⟩ := understood.value_admits held
    cases known
    exact admitted.2 name member
  · cases member

theorem itemNames_ne_nil (member : "item-names" ∈ command.arguments.map (·.slot)) :
    command.itemNames ≠ [] := by
  obtain ⟨value, held⟩ := value_of_mem member
  obtain ⟨kind, known, admitted⟩ := understood.value_admits held
  cases known
  cases value with
  | list listed =>
      simp only [itemNames, names, held]
      exact admitted.1
  | raw _ => cases admitted
  | path _ => cases admitted

theorem schemaNames_ne_nil (member : "schema-names" ∈ command.arguments.map (·.slot)) :
    command.schemaNames ≠ [] := by
  obtain ⟨value, held⟩ := value_of_mem member
  obtain ⟨kind, known, admitted⟩ := understood.value_admits held
  cases known
  cases value with
  | list listed =>
      simp only [schemaNames, names, held]
      exact admitted.1
  | raw _ => cases admitted
  | path _ => cases admitted

theorem value_cmd (member : "cmd" ∈ command.arguments.map (·.slot)) :
    ∃ text, command.value? "cmd" = some (.raw text) := by
  obtain ⟨value, held⟩ := value_of_mem member
  obtain ⟨kind, known, admitted⟩ := understood.value_admits held
  cases known
  cases value with
  | raw text => exact ⟨text, held⟩
  | list _ => cases admitted
  | path _ => cases admitted

theorem value_sql (member : "sql" ∈ command.arguments.map (·.slot)) :
    ∃ text, command.value? "sql" = some (.raw text) ∨
      command.value? "sql" = some (.path text) := by
  obtain ⟨value, held⟩ := value_of_mem member
  obtain ⟨kind, known, admitted⟩ := understood.value_admits held
  cases known
  cases value with
  | raw text => exact ⟨text, .inl held⟩
  | path text => exact ⟨text, .inr held⟩
  | list _ => cases admitted

end Understood

/-- Are the names given that the object is planned from? Foreign keys can be listed in some schemas,
but created and dropped only in all. -/
def listsNames (root : String) (object : Option String) (clause : Option Clause)
    (slots : List String) : Bool :=
  match object with
  | some "schema" => slots.contains "schema-names"
  | some "foreign-keys" => (Verb.ofName? root).isNone || clause.isNone
  | some object =>
      match ItemClass.ofObject? object with
      | some (_, false) => slots.contains "item-names"
      | _ => true
  | none => true

theorem builtin_lists : ∀ trail ∈ Grammar.builtin.trails [], trail.2.mayEnd = true →
    listsNames ((trail.1.map (·.name)).reverse.headD "")
      ((Match.objectOf [] trail.1).map (·.1))
      ((Match.objectOf [] trail.1).bind fun (_, after) => Clause.ofKeywords? after)
      ((slotsOf trail.1).map (·.name)) = true := by
  decide +kernel

/-- What a command is about is named in it, unless it is about all of a class. -/
structure Lists (command : Command) : Prop where
  schemas : command.object = some "schema" → command.schemaNames ≠ []
  items : ∀ object items, command.object = some object →
    ItemClass.ofObject? object = some (items, false) → command.itemNames ≠ []
  foreignKeys : ∀ verb, Verb.ofName? command.root = some verb →
    command.object = some "foreign-keys" → command.clause = none

theorem lists_of_parse {text : String} {commands : List Command}
    (parsed : parse Grammar.builtin text = .ok commands) {command : Command}
    (member : command ∈ commands) : command.Lists := by
  obtain ⟨trail, led, ends, spells⟩ := parse_spells parsed member
  have understood := understood_of_parse parsed member
  have lists := builtin_lists trail led ends
  rw [← spells.root, ← spells.object, ← spells.clause, ← spells.fill.names] at lists
  constructor
  · intro named
    rw [named] at lists
    exact understood.schemaNames_ne_nil (List.contains_iff_mem.mp lists)
  · intro object items named singular
    unfold listsNames at lists
    rw [named] at lists
    unfold ItemClass.ofObject? at singular
    split at singular <;> cases singular
    all_goals exact understood.itemNames_ne_nil (List.contains_iff_mem.mp lists)
  · intro verb root named
    rw [named] at lists
    simpa [listsNames, root] using lists

end Rollout.Command
