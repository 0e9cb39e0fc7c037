import Rollout.Proofs.Plan.Answers
import Rollout.Proofs.Plan.Confined

/-!
Where the files of a command with a list of names stand. Names are written into templates as they
are, and read as patterns then; still, each file is one of a kind that the command is about, in the
directory of that kind, and its schema and its item are among those that the list names.
-/

namespace Rollout

namespace FileKind

/-- Paths of files of a kind, in segments. A schema has files of its own; items have a folder in
the directory of their class; types are files themselves. -/
inductive Placed (kind : FileKind) (verb : Verb) (schema : String) :
    Option String → List String → Prop where
  | ofSchema {file : String} (named : kind.schemaFile? = some file) :
      Placed kind verb schema none ["schemas", schema, scriptName file verb]
  | ofItem {directory file item : String} (named : kind.place? = some (directory, file)) :
      Placed kind verb schema (some item)
        ["schemas", schema, directory, item, scriptName file verb]
  | ofKeys {item : String} (keys : kind = .foreignKeys) :
      Placed kind verb schema (some item)
        ["schemas", schema, "tables", item, scriptName "foreign-keys" verb]
  | ofType {item : String} (types : kind = .type ∨ kind = .typePrivileges) :
      Placed kind verb schema (some item) ["schemas", schema, "types", scriptName item verb]

/-- A path of a file of a kind, in which every segment is a name. -/
structure InPlace (kind : FileKind) (verb : Verb) (schema : String) (item : Option String)
    (path : String) : Prop where
  placed : kind.Placed verb schema item (Path.segments path)
  proper : ∀ segment ∈ Path.segments path, Path.IsName segment

/-- What a command runs for its object. All tables of a schema have their foreign keys with them. -/
def ofObject (object : String) (verb : Verb) : List FileKind :=
  match object with
  | "schema" | "schemas" => [if verb.isPrivileges then .schemaPrivileges else .schema]
  | "indexes" => [.tableIndexes, .viewIndexes]
  | "constraints" => [.constraints]
  | "triggers" => [.triggers]
  | "tables" =>
      ItemClass.table.planned verb :: if verb.isPrivileges then [] else [.foreignKeys]
  | object => ((ItemClass.ofObject? object).map fun (items, _) => items.planned verb).toList

/-- What is attached to an object when it is created. -/
def attachedTo (object : String) : List FileKind :=
  match object with
  | "schema" | "schemas" => [.schemaPrivileges]
  | object => ((ItemClass.ofObject? object).map fun (items, _) => items.attachments).getD []

/-- The kinds of files that a command runs, with the verb in their names: its own, and on privileges
that are attached the one that grants them. -/
inductive Serves (object : String) (verb : Verb) : FileKind → Verb → Prop where
  | own {kind : FileKind} (member : kind ∈ ofObject object verb) : Serves object verb kind verb
  | attached {kind : FileKind} (creates : verb = .create) (member : kind ∈ attachedTo object) :
      Serves object verb kind (kind.verbFor .create)

section Serves

variable {object : String} {verb : Verb} {items : ItemClass} {plural : Bool} {kind : FileKind}

theorem Serves.planned (known : ItemClass.ofObject? object = some (items, plural)) :
    Serves object verb (items.planned verb) verb := by
  refine .own ?_
  unfold ItemClass.ofObject? at known
  split at known <;> cases known <;> exact List.mem_cons_self

theorem Serves.attachment (known : ItemClass.ofObject? object = some (items, plural))
    (member : kind ∈ items.attachments) : Serves object .create kind (kind.verbFor .create) := by
  refine .attached rfl ?_
  unfold ItemClass.ofObject? at known
  split at known <;> cases known <;> exact member

end Serves

end FileKind

namespace Command

/-- A part of a listed name agrees with the name that it is; a question mark with all. -/
def Agrees (part name : String) : Prop := part = Name.wildcard ∨ name = part

/-- Does the clause exclude what is listed? -/
def excludes (command : Command) : Bool := command.clause.any Clause.isExclusion

/-- The lists of a command name an item of a schema. -/
inductive Names (command : Command) (schema : String) : Option String → Prop where
  | schema {item : Option String} (includes : command.excludes = false)
      (listed : schema ∈ command.schemaNames) : Names command schema item
  | others {item : Option String} (excludes : command.excludes = true)
      (spared : schema ∉ command.schemaNames) : Names command schema item
  | item {name part asked item : String} (listed : name ∈ command.itemNames)
      (split : Name.qualified? name = some (part, asked)) (schemaAgrees : Agrees part schema)
      (itemAgrees : Agrees asked item) : Names command schema (some item)

/-- Is this object, with this clause, planned from names that are listed? -/
def takesNames (object : Option String) (clause : Option Clause) : Bool :=
  match object with
  | some "schema" => clause == none
  | some "schemas" => clause == some .except
  | some "indexes" | some "constraints" | some "triggers" => true
  | some object =>
      match ItemClass.ofObject? object with
      | some (_, plural) => !plural || clause == some .within || clause == some .exceptIn
      | none => false
  | none => false

theorem takesNames_items {object : String} {items : ItemClass} {plural : Bool}
    (known : ItemClass.ofObject? object = some (items, plural)) (clause : Option Clause) :
    takesNames (some object) clause =
      (!plural || clause == some .within || clause == some .exceptIn) := by
  unfold ItemClass.ofObject? at known
  split at known <;> cases known <;> rfl

theorem builtin_takesNames : ∀ trail ∈ Grammar.builtin.trails [], trail.2.mayEnd = true →
    (Verb.ofName? ((trail.1.map (·.name)).reverse.headD "")).isSome = true →
    "schema-names" ∈ (slotsOf trail.1).map (·.name) ∨
      "item-names" ∈ (slotsOf trail.1).map (·.name) →
    takesNames ((Match.objectOf [] trail.1).map (·.1))
      ((Match.objectOf [] trail.1).bind fun (_, after) => Clause.ofKeywords? after) = true := by
  decide +kernel

theorem slot_of_names {command : Command} {slot : String} (filled : command.names slot ≠ []) :
    slot ∈ command.arguments.map (·.slot) := by
  unfold names at filled
  split at filled
  · rename_i listed held
    obtain ⟨argument, found, -⟩ := Option.map_eq_some_iff.mp held
    have named : argument.slot = slot := by simpa using List.find?_some found
    exact List.mem_map.mpr ⟨argument, List.mem_of_find?_eq_some found, named⟩
  · exact absurd rfl filled

theorem takesNames_of_parse {text : String} {commands : List Command}
    (parsed : parse Grammar.builtin text = .ok commands) {command : Command}
    (member : command ∈ commands) {verb : Verb} (root : command.root = verb.name)
    (lists : command.schemaNames ≠ [] ∨ command.itemNames ≠ []) :
    takesNames command.object command.clause = true := by
  obtain ⟨trail, led, ends, spells⟩ := parse_spells parsed member
  rw [spells.object, spells.clause]
  refine builtin_takesNames trail led ends ?_ ?_
  · rw [← spells.root, root]
    cases verb <;> rfl
  · rw [← spells.fill.names]
    exact lists.imp slot_of_names slot_of_names

theorem agrees_of_whole {part name : String} (fits : Name.IsPart part)
    (same : Path.isWildcard part = false → name = part) : Agrees part name :=
  fits.imp_right fun identifier => same (Path.not_isWildcard_of_isIdentifier identifier)

theorem agrees_of_chosen {part name : String} (fits : Name.IsPart part)
    (chosen : Plan.Chosen part name) : Agrees part name :=
  agrees_of_whole fits fun whole => (Planner.chosen_literal whole).mp chosen

/-- A clause that the grammar allows here names the schemas that it keeps. -/
theorem names_of_keeps {command : Command} {schema : String} {item : Option String}
    (clause : command.clause ∈ [some .within, some .except, some .exceptIn])
    (kept : command.keeps schema = true) : command.Names schema item := by
  simp only [List.mem_cons, List.not_mem_nil, or_false] at clause
  unfold keeps at kept
  rcases clause with within | except | exceptIn
  · rw [within] at kept
    exact .schema (by simp [excludes, within, Clause.isExclusion]) (by simpa using kept)
  · rw [except] at kept
    exact .others (by simp [excludes, except, Clause.isExclusion])
      (by simpa [Clause.isExclusion] using kept)
  · rw [exceptIn] at kept
    exact .others (by simp [excludes, exceptIn, Clause.isExclusion])
      (by simpa [Clause.isExclusion] using kept)

end Command

namespace Planner

open FileKind (InPlace scriptName)

variable {planner : Planner} {items : ItemClass} {kind : FileKind} {verb : Verb}
  {schema item path : String}

theorem Hits.proper {snapshot : Snapshot} {segments : List String} {file : String}
    (hits : Hits snapshot segments file path) :
    ∀ segment ∈ Path.segments path, Path.IsName segment := by
  obtain ⟨stands, -, -⟩ := hits
  rw [stands.segments]
  exact List.forall_mem_append.mpr ⟨stands.named, List.forall_mem_singleton.mpr stands.last⟩

theorem mem_emit {schema item : Option String}
    (member : planner.runs path ∈ (planner.emit kind verb schema item).events) :
    planner.runs path ∈ (planner.emitFound kind verb schema item).events := by
  rcases Draft.mem_andThen member with found | ⟨_, -, none⟩
  · exact found
  · cases none

/-- Items are planned by their own files first, and what follows depends on those that were found. -/
theorem mem_emitPlanned {schema item : Option String} {rest : List String → Draft Unit}
    (member : planner.runs path ∈ (if verb.isPrivileges then
        planner.emit items.privileges verb schema item
      else (planner.emitFound items.primary verb schema item).andThen rest).events) :
    planner.runs path ∈ (planner.emitFound (items.planned verb) verb schema item).events ∨
      ∃ found, (planner.emitFound items.primary verb schema item).outcome = .ok found ∧
        planner.runs path ∈ (rest found).events := by
  split at member
  · rename_i privileges
    rw [ItemClass.planned, if_pos privileges]
    exact .inl (mem_emit member)
  · rename_i other
    rw [ItemClass.planned, if_neg other]
    exact Draft.mem_andThen member

section Finding

variable (tidy : planner.snapshot.Tidy) (orderly : planner.snapshot.Orderly)

include tidy orderly

theorem inPlace_schema {file : String} (ofSchema : kind.schemaFile? = some file)
    (schemaFits : Literal schema)
    (member : planner.runs path ∈ (planner.emitFound kind verb (some schema) none).events) :
    InPlace kind (kind.verbFor verb) schema none path := by
  have hits := (mem_emitFound_iff tidy orderly (seeks_schema ofSchema schemaFits.sought)).mp member
  have proper := hits.proper
  obtain ⟨stands, each, accepted⟩ := hits
  have literal : ∀ segment ∈ ["schemas", schema], Path.isWildcard segment = false := by
    simp only [List.forall_mem_cons]
    exact ⟨by decide, schemaFits.literal, nofun⟩
  refine ⟨?_, proper⟩
  rw [stands.segments, eq_of_chosen literal each,
    (FileKind.accepts_scriptName (FileKind.file_ofSchema ofSchema).2).mp accepted]
  exact .ofSchema ofSchema

/-- What is found in the folders of items that are asked for. -/
theorem inPlace_folder {directory file : String} (named : kind.place? = some (directory, file))
    (schemaFits : Sought schema) (itemFits : Sought item)
    (member : planner.runs path ∈ (planner.emitFound kind verb (some schema) (some item)).events) :
    ∃ inside name, InPlace kind (kind.verbFor verb) inside (some name) path ∧
      Plan.Chosen schema inside ∧ Plan.Chosen item name := by
  have hits :=
    (mem_emitFound_iff tidy orderly (seeks_placed named schemaFits itemFits)).mp member
  obtain ⟨inside, name, parts, -, -, schemaChosen, itemChosen⟩ := hits_folder tidy orderly
    (FileKind.directory_placed named).2 (FileKind.file_placed named).2 hits
  exact ⟨inside, name, ⟨by rw [parts]; exact .ofItem named, hits.proper⟩, schemaChosen,
    itemChosen⟩

theorem inPlace_keys (schemaFits : Literal schema)
    (member : planner.runs path ∈ (planner.emit .foreignKeys verb (some schema) none).events) :
    ∃ name, InPlace .foreignKeys verb schema (some name) path := by
  have hits := hits_of_emit tidy orderly (seeks_foreignKeys schemaFits.sought none) member
  obtain ⟨inside, name, parts, -, -, chosen, -⟩ :=
    hits_folder tidy orderly (by decide) (by decide) hits
  obtain rfl := (chosen_literal schemaFits.literal).mp chosen
  exact ⟨name, by rw [parts]; exact .ofKeys rfl, hits.proper⟩

/-- What is found for items of a class, as folders or as files. -/
theorem inPlace_item (has : kind ∈ items.kinds) (asks : Asks items item)
    (schemaFits : Sought schema)
    (member : planner.runs path ∈ (planner.emitFound kind verb (some schema) (some item)).events) :
    ∃ inside name, InPlace kind (kind.verbFor verb) inside (some name) path ∧
      Plan.Chosen schema inside ∧ (Path.isWildcard item = false → name = item) := by
  rcases ItemClass.kinds_cases has with ⟨-, file, named⟩ | ⟨rfl, types, -⟩
  · obtain ⟨inside, name, found, schemaChosen, itemChosen⟩ :=
      inPlace_folder tidy orderly named schemaFits asks.sought member
    exact ⟨inside, name, found, schemaChosen, fun whole => (chosen_literal whole).mp itemChosen⟩
  · have hits :=
      (mem_emitFound_iff tidy orderly (seeks_type types schemaFits asks.sought)).mp member
    obtain ⟨inside, name, parts, -, -, -, chosen, -, same⟩ := hits_script tidy orderly asks hits
    exact ⟨inside, name, ⟨by rw [parts]; exact .ofType types, hits.proper⟩, chosen, same⟩

/-- What is attached to a type may be that of another, if the name of the type is a pattern. -/
theorem inPlace_typePrivileges (schemaFits : Literal schema) (itemFits : Path.Holdable item)
    (member : planner.runs path ∈
      (planner.emitFound .typePrivileges verb (some schema) (some item)).events) :
    ∃ name, InPlace .typePrivileges (FileKind.typePrivileges.verbFor verb) schema (some name)
      path ∧ (Path.isWildcard item = false → name = item) := by
  have hits :=
    (mem_emitFound_iff tidy orderly (seeks_typePrivileges schemaFits itemFits)).mp member
  have proper := hits.proper
  obtain ⟨stands, each, accepted⟩ := hits
  have literal : ∀ segment ∈ ["schemas", schema, "types"], Path.isWildcard segment = false := by
    simp only [List.forall_mem_cons]
    exact ⟨by decide, schemaFits.literal, by decide, nofun⟩
  obtain ⟨name, rfl⟩ := FileKind.accepts_script accepted
  refine ⟨name, ⟨?_, proper⟩, fun whole => ?_⟩
  · rw [stands.segments, eq_of_chosen literal each]
    exact .ofType (.inr rfl)
  · have free : '\x7b' ∉ item.toList := (Path.not_isWildcard_iff.mp whole).2.2
    rw [FileKind.filledName_of_free free, FileKind.accepts_scriptName whole] at accepted
    exact FileKind.scriptName_inj accepted

/-- What is attached to an item is in the schema of the item, and belongs to it. -/
theorem inPlace_attach (schemaFits : Literal schema) (owner : Owner items item)
    (member : planner.runs path ∈ (planner.attach items schema item).events) :
    ∃ kind ∈ items.attachments, ∃ name, InPlace kind (kind.verbFor .create) schema (some name)
      path ∧ (Path.isWildcard item = false → name = item) := by
  obtain ⟨kind, among, planned⟩ := Draft.mem_each member
  have found := mem_emit planned
  refine ⟨kind, among, ?_⟩
  by_cases types : items = .type
  · subst types
    obtain rfl : kind = .typePrivileges := List.mem_singleton.mp among
    exact inPlace_typePrivileges tidy orderly schemaFits owner.holdable found
  · have itemFits : Literal item := ⟨owner.holdable, owner.literal types⟩
    obtain ⟨file, named⟩ := items.placed types kind (ItemClass.attachment_mem among)
    obtain ⟨inside, name, inPlace, schemaChosen, itemChosen⟩ :=
      inPlace_folder tidy orderly named schemaFits.sought itemFits.sought found
    obtain rfl := (chosen_literal schemaFits.literal).mp schemaChosen
    exact ⟨name, inPlace, fun whole => (chosen_literal whole).mp itemChosen⟩

/-- What is attached to files that were found is of the items that their paths tell. If an item was
asked for by its name, it is that one. -/
theorem inPlace_attachFound (asks : Asks items item) {found : List String}
    (hits : ∀ file ∈ found, Hits planner.snapshot (items.primary.spot .create schema item).1
      (items.primary.spot .create schema item).2 file)
    (member : planner.runs path ∈ (planner.attachFound items found).events) :
    ∃ kind ∈ items.attachments, ∃ inside name,
      InPlace kind (kind.verbFor .create) inside (some name) path ∧
        Plan.Chosen schema inside ∧ (Path.isWildcard item = false → name = item) := by
  obtain ⟨file, among, attached⟩ := Draft.mem_each member
  obtain ⟨inside, read, tells, insideFits, owner, chosen, same⟩ :=
    schemaItem_of_hits tidy orderly asks (hits file among)
  rw [tells] at attached
  obtain ⟨kind, belongs, name, inPlace, whole⟩ :=
    inPlace_attach tidy orderly insideFits owner attached
  refine ⟨kind, belongs, inside, name, inPlace, chosen, fun literal => ?_⟩
  obtain rfl := same literal
  exact whole literal

end Finding

/-- The file is one that the command serves, for a schema and an item that it names. -/
def Accounts (command : Command) (object : String) (verb : Verb) (path : String) : Prop :=
  ∃ kind other schema item, FileKind.Serves object verb kind other ∧ command.Names schema item ∧
    InPlace kind other schema item path

section Commands

variable {command : Command} {object : String} {plural : Bool} {schemas : List String}

variable (tidy : planner.snapshot.Tidy) (orderly : planner.snapshot.Orderly)

include tidy orderly

theorem planSchemas_accounts (ofSchemas : object = "schema" ∨ object = "schemas")
    (fits : ∀ schema ∈ schemas, Literal schema)
    (names : ∀ schema ∈ schemas, command.Names schema none)
    (member : planner.runs path ∈ (planner.planSchemas verb schemas).events) :
    Accounts command object verb path := by
  obtain ⟨schema, among, planned⟩ := Draft.mem_each member
  have own (kind : FileKind) (same : FileKind.ofObject object verb = [kind]) :
      FileKind.Serves object verb kind verb := .own (same ▸ List.mem_singleton_self kind)
  split at planned
  · rename_i privileges
    have same : FileKind.ofObject object verb = [.schemaPrivileges] := by
      rcases ofSchemas with rfl | rfl <;> simp [FileKind.ofObject, privileges]
    have inPlace := inPlace_schema tidy orderly rfl (fits schema among) (mem_emit planned)
    have verbs : FileKind.schemaPrivileges.verbFor verb = verb := by
      cases verb <;> first | rfl | cases privileges
    rw [verbs] at inPlace
    exact ⟨_, _, schema, none, own _ same, names schema among, inPlace⟩
  · rename_i other
    rcases Draft.mem_andThen planned with first | ⟨found, -, later⟩
    · have same : FileKind.ofObject object verb = [.schema] := by
        rcases ofSchemas with rfl | rfl <;> simp [FileKind.ofObject, other]
      exact ⟨_, _, schema, none, own _ same, names schema among,
        inPlace_schema tidy orderly rfl (fits schema among) first⟩
    · split at later
      · rename_i creating
        obtain ⟨rfl, -⟩ := creating
        have attached : FileKind.schemaPrivileges ∈ FileKind.attachedTo object := by
          rcases ofSchemas with rfl | rfl <;> decide
        exact ⟨_, _, schema, none, .attached rfl attached, names schema among,
          inPlace_schema tidy orderly rfl (fits schema among) (mem_emit later)⟩
      · cases later

theorem planListedItems_accounts (understood : command.Understood)
    (known : ItemClass.ofObject? object = some (items, plural))
    (member : planner.runs path ∈ (planner.planListedItems command verb items).events) :
    Accounts command object verb path := by
  obtain ⟨name, listed, planned⟩ := Draft.mem_each member
  obtain ⟨part, asked, split, partFits, askedFits⟩ := understood.itemNames_isQualified listed
  simp only [Command.splitName, split, Draft.bind_eq, Draft.done_andThen] at planned
  have asks : Asks items asked := .inl askedFits
  have names {inside item : String} (chosen : Plan.Chosen part inside)
      (same : Path.isWildcard asked = false → item = asked) :
      command.Names inside (some item) :=
    .item listed split (Command.agrees_of_chosen partFits chosen)
      (Command.agrees_of_whole askedFits same)
  rcases mem_emitPlanned planned with own | ⟨found, ended, later⟩
  · obtain ⟨inside, item, inPlace, chosen, same⟩ :=
      inPlace_item tidy orderly (items.planned_mem verb) asks (.of_part partFits) own
    rw [items.verbFor_planned] at inPlace
    exact ⟨_, _, inside, item, .planned known, names chosen same, inPlace⟩
  · split at later
    · rename_i creating
      subst creating
      have seeks : Seeks items.primary .create part (some asked) _ _ :=
        seeks_spot items.primary_mem (.of_part partFits) asks.sought
      obtain ⟨kind, belongs, inside, item, inPlace, chosen, same⟩ :=
        inPlace_attachFound tidy orderly asks
          (fun file => hits_of_emitFound tidy orderly seeks ended) later
      exact ⟨_, _, inside, item, .attachment known belongs, names chosen same, inPlace⟩
    · cases later

/-- In each schema that is left, all items of the class. -/
theorem planSchemaItems_accounts (known : ItemClass.ofObject? object = some (items, plural))
    (schemaFits : Literal schema) (names : ∀ item, command.Names schema item)
    (member : planner.runs path ∈ (planner.planSchemaItems verb items schema).events) :
    Accounts command object verb path := by
  rcases mem_emitPlanned member with own | ⟨found, ended, later⟩
  · obtain ⟨inside, item, inPlace, chosen, -⟩ := inPlace_item tidy orderly
      (items.planned_mem verb) .anyItem schemaFits.sought own
    obtain rfl := (chosen_literal schemaFits.literal).mp chosen
    rw [items.verbFor_planned] at inPlace
    exact ⟨_, _, _, _, .planned known, names _, inPlace⟩
  · split at later
    · rename_i creating
      obtain ⟨rfl, -⟩ := creating
      have seeks : Seeks items.primary .create schema (some items.anyItem) _ _ :=
        seeks_spot items.primary_mem schemaFits.sought Asks.anyItem.sought
      obtain ⟨listing, ends, owners⟩ := (itemsOf_answers tidy orderly schemaFits fun file =>
        hits_of_emitFound tidy orderly seeks ended).ends
      rcases Draft.mem_andThen later with listed | ⟨owned, same, attached⟩
      · exact absurd listed (by cases items <;> exact List.not_mem_nil)
      · cases ends.symm.trans same
        obtain ⟨item, within, planned⟩ := Draft.mem_each attached
        obtain ⟨kind, belongs, name, inPlace, -⟩ :=
          inPlace_attach tidy orderly schemaFits (owners item within) planned
        exact ⟨_, _, _, _, .attachment known belongs, names _, inPlace⟩
    · cases later

theorem planForeignKeys_accounts (changes : verb.isPrivileges = false)
    (fits : ∀ schema ∈ schemas, Literal schema)
    (names : ∀ schema ∈ schemas, ∀ item, command.Names schema item)
    (member : planner.runs path ∈ (planner.planForeignKeys verb schemas).events) :
    Accounts command "tables" verb path := by
  obtain ⟨schema, among, planned⟩ := Draft.mem_each member
  obtain ⟨name, inPlace⟩ := inPlace_keys tidy orderly (fits schema among) planned
  have keys : FileKind.foreignKeys ∈ FileKind.ofObject "tables" verb := by
    simp [FileKind.ofObject, changes]
  exact ⟨_, _, _, _, .own keys, names schema among _, inPlace⟩

theorem planAllItems_accounts (known : ItemClass.ofObject? object = some (items, true))
    (clause : command.clause ∈ [some .within, some .except, some .exceptIn])
    (member : planner.runs path ∈ (planner.planAllItems command verb items).events) :
    Accounts command object verb path := by
  obtain ⟨all, listed, -, fits, -⟩ := schemas_spec tidy orderly
  have left : ∀ schema ∈ command.filterSchemas all,
      Literal schema ∧ ∀ item, command.Names schema item := by
    intro schema among
    rw [Command.filterSchemas_eq] at among
    obtain ⟨held, kept⟩ := List.mem_filter.mp among
    exact ⟨fits schema held, fun item => Command.names_of_keeps clause kept⟩
  have keys (tables : items = .table) (changes : verb.isPrivileges = false)
      (planned : planner.runs path ∈
        (planner.planForeignKeys verb (command.filterSchemas all)).events) :
      Accounts command object verb path := by
    have same : object = "tables" := by
      subst tables
      unfold ItemClass.ofObject? at known
      split at known <;> cases known
      rfl
    subst same
    exact planForeignKeys_accounts tidy orderly changes (fun schema among => (left schema among).1)
      (fun schema among => (left schema among).2) planned
  have rest (later : planner.runs path ∈ ((Draft.each (planner.planSchemaItems verb items)
      (command.filterSchemas all)).andThen fun _ => if items = .table ∧ verb = .create then
        planner.planForeignKeys verb (command.filterSchemas all) else .done ()).events) :
      Accounts command object verb path := by
    rcases Draft.mem_andThen later with early | ⟨_, -, last⟩
    · obtain ⟨schema, among, planned⟩ := Draft.mem_each early
      exact planSchemaItems_accounts tidy orderly known (left schema among).1
        (left schema among).2 planned
    · split at last
      · rename_i creating
        exact keys creating.1 (by rw [creating.2]; rfl) last
      · cases last
  -- foreign keys are dropped before all tables, and created after them
  unfold planAllItems at member
  simp only [listed, Draft.bind_eq, Draft.ofSource_andThen] at member
  split at member
  · rename_i dropping
    rcases Draft.mem_andThen member with first | ⟨_, -, later⟩
    · exact keys dropping.1 (by rw [dropping.2]; rfl) first
    · exact rest later
  · exact rest member

theorem planOn_accounts (understood : command.Understood) {kinds : List FileKind}
    (own : ∀ kind ∈ kinds, kind ∈ FileKind.ofObject object verb ∧ kind.verbFor verb = verb ∧
      kind.place?.isSome = true)
    (member : planner.runs path ∈ (planner.planOn command verb kinds).events) :
    Accounts command object verb path := by
  unfold planOn at member
  split at member
  · cases member
  · obtain ⟨name, listed, planned⟩ := Draft.mem_each member
    obtain ⟨part, asked, split, partFits, askedFits⟩ := understood.itemNames_isQualified listed
    simp only [Command.splitName, split, Draft.bind_eq, Draft.done_andThen] at planned
    obtain ⟨kind, among, found⟩ := Draft.mem_each planned
    obtain ⟨serves, verbs, placed⟩ := own kind among
    obtain ⟨⟨directory, file⟩, named⟩ := Option.isSome_iff_exists.mp placed
    obtain ⟨inside, item, inPlace, schemaChosen, itemChosen⟩ := inPlace_folder tidy orderly named
      (.of_part partFits) (.of_part askedFits) (mem_emit found)
    rw [verbs] at inPlace
    exact ⟨_, _, inside, item, .own serves, .item listed split
      (Command.agrees_of_chosen partFits schemaChosen)
      (Command.agrees_of_chosen askedFits itemChosen), inPlace⟩

/-- What is planned for a command with a list is accounted for by its object and by the list. -/
theorem planObjects_accounts (understood : command.Understood)
    (takes : Command.takesNames command.object command.clause = true)
    (member : planner.runs path ∈ (planner.planObjects command verb).events) :
    ∃ object, command.object = some object ∧ Accounts command object verb path := by
  obtain ⟨all, listed, -, fits, -⟩ := schemas_spec tidy orderly
  unfold planObjects at member
  -- the objects in the order in which they are told apart; five of them take no names
  split at member
  · cases member
  iterate 4
    rename_i object
    simp [Command.takesNames, object, ItemClass.ofObject?] at takes
  · rename_i object
    have clause : command.clause = some .except := by
      simpa [Command.takesNames, object] using takes
    simp only [listed, Draft.bind_eq, Draft.ofSource_andThen] at member
    refine ⟨_, object, planSchemas_accounts tidy orderly (.inr rfl)
      (fun schema among => fits schema (Command.mem_filterSchemas among))
      (fun schema among => ?_) member⟩
    rw [Command.filterSchemas_eq] at among
    exact Command.names_of_keeps (by simp [clause]) (List.mem_filter.mp among).2
  · rename_i object
    have clause : command.clause = none := by simpa [Command.takesNames, object] using takes
    have includes : command.excludes = false := by simp [Command.excludes, clause]
    refine ⟨_, object, planSchemas_accounts tidy orderly (.inl rfl) (fun schema among => ?_)
      (fun schema among => .schema includes among) member⟩
    have identifier := understood.schemaNames_isIdentifier among
    exact ⟨(Sought.of_part (.inr identifier)).holdable,
      Path.not_isWildcard_of_isIdentifier identifier⟩
  iterate 3
    rename_i object
    refine ⟨_, object, planOn_accounts tidy orderly understood ?_ member⟩
    cases verb <;> decide
  · rename_i object _ _ _ _ _ _ _ _ _ named
    split at member
    · rename_i items known
      have clause : command.clause ∈ [some .within, some .except, some .exceptIn] := by
        rw [named, Command.takesNames_items known] at takes
        rcases (by simpa using takes : _ ∨ _) with within | exceptIn
        · simp [within]
        · simp [exceptIn]
      exact ⟨object, named, planAllItems_accounts tidy orderly known clause member⟩
    · rename_i items known
      exact ⟨object, named, planListedItems_accounts tidy orderly understood known member⟩
    · cases member

end Commands

/-- Each file that a command with a list of schemas or items runs is of a kind that the command is
about, or attached to it, and is in place for a schema and an item that the list names. -/
theorem plan_in_place (tidy : planner.snapshot.Tidy) (orderly : planner.snapshot.Orderly)
    {text : String} {commands : List Command}
    (parsed : Command.parse Grammar.builtin text = .ok commands) {command : Command}
    (member : command ∈ commands) (root : Verb.ofName? command.root = some verb)
    (lists : command.schemaNames ≠ [] ∨ command.itemNames ≠ []) {State : Type}
    (database : Option (Database State)) (state : State) {step : Step} {file : FileRef}
    (among : step ∈ ((planner.plan command).settle database state).1.steps)
    (about : step.file? = some file) :
    ∃ object kind other schema item, command.object = some object ∧
      FileKind.Serves object verb kind other ∧ command.Names schema item ∧
      InPlace kind other schema item file.path := by
  have named : command.root = verb.name := Verb.eq_name_of_ofName? root
  have understood := Command.understood_of_parse parsed member
  have takes := Command.takesNames_of_parse parsed member named lists
  rw [plan_steps database state named] at among
  rcases List.mem_cons.mp among with rfl | planned
  · cases about
  · have event := Draft.mem_stepsOf.mp planned
    have answers : planner.Answers (fun _ => True) (planner.planObjects command verb) :=
      planObjects_answers tidy orderly understood (understood.namesObject named)
    -- all that is planned for an object is to run files
    rcases answers.plain _ event with ⟨pattern, tried⟩ | ⟨path, runs⟩
    · cases tried
    · rw [runs] at event
      cases runs
      cases about
      obtain ⟨object, own, kind, other, schema, item, accounted⟩ :=
        planObjects_accounts tidy orderly understood takes event
      exact ⟨object, kind, other, schema, item, own, accounted⟩

/-- A type with the name of another in braces, and what grants the use of the other. -/
def bracedType : Planner where
  grammar := Grammar.builtin
  snapshot := .disk ⟨".", .node (.folder (.folder "schemas" (.folder "app" (.folder "types"
    (.file "a.grant.sql" (.text "grant usage on type a to b")
      (.file "\x7ba\x7d.create.sql" (.text "create type a") .nil)) .nil) .nil) .nil))⟩
  ref := none
  autoTransaction := true

def createAnyType : Command :=
  ⟨"create", ["create", "type"], some "type", none, [⟨"item-names", .list ["app.?"]⟩], none,
    "create type app.?", 1⟩

/-- The question mark stands for the type, whose name is read as a pattern for the other. -/
theorem plan_in_place_bracedType :
    bracedType.snapshot.Tidy ∧ bracedType.snapshot.Orderly ∧
      Command.parse Grammar.builtin "create type app.?" = .ok [createAnyType] ∧
      createAnyType.itemNames = ["app.?"] ∧
      ((bracedType.plan createAnyType).settle (none : Option (Database Unit)) ()).1.steps =
        [.runCommand "create type app.?",
          .execFile ⟨"schemas/app/types/\x7ba\x7d.create.sql", none⟩,
          .execFile ⟨"schemas/app/types/a.grant.sql", none⟩] ∧
      ∃ object kind other schema item, createAnyType.object = some object ∧
        FileKind.Serves object .create kind other ∧ createAnyType.Names schema item ∧
        InPlace kind other schema item "schemas/app/types/a.grant.sql" := by
  have tidy : bracedType.snapshot.Tidy := by
    rintro folder ⟨⟩
    decide
  have orderly : bracedType.snapshot.Orderly := by
    rintro folder ⟨⟩
    decide
  have parsed : Command.parse Grammar.builtin "create type app.?" = .ok [createAnyType] := by
    decide +kernel
  have names : createAnyType.itemNames = ["app.?"] := rfl
  have steps : ((bracedType.plan createAnyType).settle (none : Option (Database Unit))
      ()).1.steps = [.runCommand "create type app.?",
        .execFile ⟨"schemas/app/types/\x7ba\x7d.create.sql", none⟩,
        .execFile ⟨"schemas/app/types/a.grant.sql", none⟩] := by
    decide +kernel
  have granted : .execFile ⟨"schemas/app/types/a.grant.sql", none⟩ ∈
      ((bracedType.plan createAnyType).settle (none : Option (Database Unit)) ()).1.steps := by
    rw [steps]
    decide
  exact ⟨tidy, orderly, parsed, names, steps, plan_in_place tidy orderly parsed List.mem_cons_self
    rfl (.inr (by rw [names]; decide)) none () granted rfl⟩

end Planner

end Rollout
