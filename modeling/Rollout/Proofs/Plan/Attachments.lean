import Rollout.Proofs.Plan.Items
import Rollout.Proofs.Plan.Seeds

/-!
What belongs to an item follows the item. Where the items are those of files that were found, what
belongs to one is planned after its own file; where they are the folders of a schema, it may be
planned without.
-/

namespace Rollout

namespace Path

/-- A path names an item in its fourth segment, up to the first dot. -/
theorem schemaItem_of_segments {path schema directory file item : String} {below more : List String}
    (parts : segments path = "schemas" :: schema :: directory :: file :: below)
    (stem : Text.splitAt '.' file = item :: more) (schemaFilled : schema ≠ "")
    (filled : item ≠ "") : schemaItem? path = some (schema, item) := by
  unfold schemaItem?
  simp [parts, stem, schemaFilled, filled]

end Path

namespace FileKind

/-- The folders that lead to a file of an item, and its name. Types are files themselves. -/
def spot (kind : FileKind) (verb : Verb) (schema item : String) : List String × String :=
  match kind.place? with
  | some (directory, file) =>
      (["schemas", schema, directory, item], scriptName file (kind.verbFor verb))
  | none => (["schemas", schema, "types"], scriptName item (kind.verbFor verb))

def pathOf (kind : FileKind) (verb : Verb) (schema item : String) : String :=
  Path.ofSegments ((kind.spot verb schema item).1 ++ [(kind.spot verb schema item).2])

end FileKind

namespace ItemClass

variable {items : ItemClass} {kind : FileKind}

/-- Items are folders with scripts in them, or scripts. -/
theorem kinds_cases (member : kind ∈ items.kinds) :
    (items ≠ .type ∧ ∃ file, kind.place? = some (items.directory, file)) ∨
      items = .type ∧ (kind = .type ∨ kind = .typePrivileges) ∧ kind.place? = none := by
  by_cases types : items = .type
  · subst types
    refine .inr ⟨rfl, ?_⟩
    simp only [kinds, primary, privileges, attachments, List.mem_cons, List.not_mem_nil,
      or_false] at member
    rcases member with rfl | rfl | rfl <;> exact ⟨by decide, rfl⟩
  · exact .inl ⟨types, items.placed types kind member⟩

end ItemClass

namespace FileKind

variable {items : ItemClass} {kind other : FileKind} {verb : Verb}
  {schema item : String}

theorem spot_placed {directory file : String} (placed : kind.place? = some (directory, file)) :
    kind.spot verb schema item =
      (["schemas", schema, directory, item], scriptName file (kind.verbFor verb)) := by
  unfold spot
  rw [placed]

theorem spot_type (none : kind.place? = none) :
    kind.spot verb schema item =
      (["schemas", schema, "types"], scriptName item (kind.verbFor verb)) := by
  unfold spot
  rw [none]

theorem spot_names (member : kind ∈ items.kinds) (schemaName : Path.IsName schema)
    (itemName : Path.IsName item) :
    ∀ name ∈ (kind.spot verb schema item).1 ++ [(kind.spot verb schema item).2],
      Path.IsName name := by
  rcases ItemClass.kinds_cases member with ⟨-, file, placed⟩ | ⟨-, -, none⟩
  · rw [spot_placed placed]
    simp only [List.cons_append, List.nil_append, List.forall_mem_cons]
    exact ⟨by decide, schemaName, (directory_placed placed).1.1, itemName,
      scriptName_isName (file_placed placed).1 _, nofun⟩
  · rw [spot_type none]
    simp only [List.cons_append, List.nil_append, List.forall_mem_cons]
    exact ⟨by decide, schemaName, by decide, scriptName_isName itemName.free _, nofun⟩

theorem segments_pathOf (member : kind ∈ items.kinds) (schemaName : Path.IsName schema)
    (itemName : Path.IsName item) :
    Path.segments (kind.pathOf verb schema item) =
      (kind.spot verb schema item).1 ++ [(kind.spot verb schema item).2] :=
  Text.splitAt_intercalate (by simp) fun name among =>
    (spot_names member schemaName itemName name among).free

theorem splitAt_scriptName (plain : '.' ∉ item.toList) (verb : Verb) :
    Text.splitAt '.' (scriptName item verb) = [item, verb.name, "sql"] := by
  have whole : scriptName item verb =
      (String.singleton '.').intercalate [item, verb.name, "sql"] := by
    apply String.ext
    simp [scriptName]
  rw [whole, Text.splitAt_intercalate (List.cons_ne_nil _ _)]
  simp only [List.forall_mem_cons]
  refine ⟨plain, ?_, by decide, List.forall_mem_nil _⟩
  cases verb <;> decide

/-- The names of an item are read back from the path of its file. -/
theorem schemaItem_pathOf (member : kind ∈ items.kinds) (schemaName : Path.IsName schema)
    (itemName : Path.IsName item) (plain : '.' ∉ item.toList) :
    Path.schemaItem? (kind.pathOf verb schema item) = some (schema, item) := by
  have parts : Path.segments (kind.pathOf verb schema item) = _ :=
    segments_pathOf member schemaName itemName
  rcases ItemClass.kinds_cases member with ⟨-, file, placed⟩ | ⟨-, -, none⟩
  · rw [spot_placed placed] at parts
    exact Path.schemaItem_of_segments parts (Text.splitAt_of_free plain) schemaName.filled
      itemName.filled
  · rw [spot_type none] at parts
    exact Path.schemaItem_of_segments parts (splitAt_scriptName plain _) schemaName.filled
      itemName.filled

section Apart

variable {otherSchema otherItem : String} (schemaName : Path.IsName schema)
  (itemName : Path.IsName item) (otherSchemaName : Path.IsName otherSchema)
  (otherItemName : Path.IsName otherItem)

include schemaName itemName otherSchemaName otherItemName

/-- A file of one item is not one of another. -/
theorem pathOf_inj (member : kind ∈ items.kinds) (also : other ∈ items.kinds)
    (alike : items = .type → kind = other)
    (same : kind.pathOf verb schema item = other.pathOf verb otherSchema otherItem) :
    schema = otherSchema ∧ item = otherItem := by
  have segments := congrArg Path.segments same
  rw [segments_pathOf member schemaName itemName,
    segments_pathOf also otherSchemaName otherItemName] at segments
  rcases ItemClass.kinds_cases member with ⟨folders, file, placed⟩ | ⟨types, -, none⟩
  · obtain ⟨last, found⟩ := items.placed folders other also
    rw [spot_placed placed, spot_placed found] at segments
    simp only [List.cons_append, List.nil_append, List.cons.injEq] at segments
    exact ⟨segments.2.1, segments.2.2.2.1⟩
  · obtain rfl := alike types
    rw [spot_type none, spot_type none] at segments
    simp only [List.cons_append, List.nil_append, List.cons.injEq] at segments
    exact ⟨segments.2.1, scriptName_inj segments.2.2.2.1⟩

/-- What belongs to an item is not the item. -/
theorem pathOf_primary (member : kind ∈ items.attachments) :
    items.primary.pathOf .create schema item ≠ kind.pathOf .create otherSchema otherItem := by
  intro same
  have segments := congrArg Path.segments same
  rw [segments_pathOf items.primary_mem schemaName itemName,
    segments_pathOf (ItemClass.attachment_mem member) otherSchemaName otherItemName] at segments
  rcases ItemClass.kinds_cases (ItemClass.attachment_mem member) with
    ⟨folders, file, placed⟩ | ⟨rfl, -, none⟩
  · obtain ⟨last, found⟩ := items.placed folders _ items.primary_mem
    rw [spot_placed placed, spot_placed found] at segments
    simp only [List.cons_append, List.nil_append, List.cons.injEq] at segments
    refine (ItemClass.script_apart folders).1 kind member ?_
    simp [script?, placed, found, segments.2.2.2.2.1]
  · obtain rfl : kind = .typePrivileges := List.mem_singleton.mp member
    have primary : FileKind.place? .type = Option.none := rfl
    rw [ItemClass.primary, spot_type none, spot_type primary] at segments
    simp only [List.cons_append, List.nil_append, List.cons.injEq] at segments
    cases scriptName_verb segments.2.2.2.1

end Apart

end FileKind

namespace Planner

variable {planner : Planner} {items : ItemClass} {kind other : FileKind} {verb : Verb}
  {schema item path : String}

theorem seeks_spot (member : kind ∈ items.kinds) (schemaFits : Sought schema)
    (itemFits : Sought item) :
    Seeks kind verb schema (some item) (kind.spot verb schema item).1
      (kind.spot verb schema item).2 := by
  rcases ItemClass.kinds_cases member with ⟨-, file, placed⟩ | ⟨-, types, none⟩
  · rw [FileKind.spot_placed placed]
    exact seeks_placed placed schemaFits itemFits
  · rw [FileKind.spot_type none]
    exact seeks_type types schemaFits itemFits

theorem spot_literal (member : kind ∈ items.kinds) (schemaFits : Literal schema)
    (itemFits : Literal item) :
    (∀ segment ∈ (kind.spot verb schema item).1, Path.isWildcard segment = false) ∧
      Path.isWildcard (kind.spot verb schema item).2 = false := by
  rcases ItemClass.kinds_cases member with ⟨-, file, placed⟩ | ⟨-, -, none⟩
  · rw [FileKind.spot_placed placed]
    simp only [List.forall_mem_cons]
    exact ⟨⟨by decide, schemaFits.literal, (FileKind.directory_placed placed).2,
      itemFits.literal, nofun⟩, FileKind.scriptName_literal (FileKind.file_placed placed).2 _⟩
  · rw [FileKind.spot_type none]
    simp only [List.forall_mem_cons]
    exact ⟨⟨by decide, schemaFits.literal, by decide, nofun⟩,
      FileKind.scriptName_literal itemFits.literal _⟩

/-- Files of an item that is known by its name stand in one place. -/
theorem hits_literal_iff (member : kind ∈ items.kinds) (schemaFits : Literal schema)
    (itemFits : Literal item) :
    Hits planner.snapshot (kind.spot verb schema item).1 (kind.spot verb schema item).2 path ↔
      path = kind.pathOf verb schema item ∧
        Stands planner.snapshot (kind.spot verb schema item).1 (kind.spot verb schema item).2 := by
  have literal : (∀ segment ∈ (kind.spot verb schema item).1, Path.isWildcard segment = false) ∧
      Path.isWildcard (kind.spot verb schema item).2 = false :=
    spot_literal member schemaFits itemFits
  obtain ⟨folders, file⟩ := literal
  constructor
  · rintro ⟨stands, each, accepted⟩
    obtain rfl := eq_of_chosen folders each
    obtain rfl := (Glob.accepts_literal file).mp accepted
    exact ⟨rfl, stands⟩
  · rintro ⟨rfl, stands⟩
    exact .at stands (List.forall₂_same.mpr fun segment among =>
      (chosen_literal (folders segment among)).mpr rfl) ((Glob.accepts_literal file).mpr rfl)

theorem hits_literal (member : kind ∈ items.kinds) (schemaFits : Literal schema)
    (itemFits : Literal item)
    (hits : Hits planner.snapshot (kind.spot verb schema item).1 (kind.spot verb schema item).2
      path) : path = kind.pathOf verb schema item :=
  ((hits_literal_iff member schemaFits itemFits).mp hits).1

/-- What items are looked for by: a name or a wildcard, and an asterisk for types. -/
def Asks (items : ItemClass) (item : String) : Prop :=
  Name.IsPart item ∨ items = .type ∧ item = items.anyItem

theorem Sought.of_part (part : Name.IsPart item) : Sought item :=
  ⟨⟨.of_part part, part.not_mem (by decide) (by decide)⟩, part.not_mem (by decide) (by decide)⟩

theorem Asks.anyItem : Asks items items.anyItem := by
  by_cases types : items = .type
  · exact .inr ⟨types, rfl⟩
  · exact .inl (.inl (ItemClass.anyItem_folders types))

theorem Asks.sought (asks : Asks items item) : Sought item := by
  rcases asks with part | ⟨rfl, rfl⟩
  · exact .of_part part
  · exact ⟨by decide, by decide⟩

/-- A question mark and an asterisk before the verb are the same wildcard. -/
theorem ofSegment_wild {mark : Char} (wild : mark = '?' ∨ mark = '*') (verb : Verb) :
    Glob.ofSegment (FileKind.scriptName (String.singleton mark) verb) =
      [.wildcard] ++ ('.' :: (verb.name.toList ++ ".sql".toList)).map .letter := by
  have tail : '?' ∉ '.' :: (verb.name.toList ++ ".sql".toList) ∧
      '*' ∉ '.' :: (verb.name.toList ++ ".sql".toList) ∧
      '\x7b' ∉ '.' :: (verb.name.toList ++ ".sql".toList) := by
    cases verb <;> decide
  rw [Glob.ofSegment, FileKind.scriptName_toList, String.toList_singleton, List.singleton_append,
    Glob.read, if_neg (by rcases wild with rfl | rfl <;> decide), if_pos wild,
    Glob.read_letters tail.1 tail.2.1 tail.2.2]
  rfl

/-- A wildcard before the verb stands for a name without dots. -/
theorem accepts_wild {mark : Char} (wild : mark = '?' ∨ mark = '*') {name : String}
    (accepted : (Glob.ofSegment (FileKind.scriptName (String.singleton mark) verb)).accepts name =
      true) :
    ∃ stem, name = FileKind.scriptName stem verb ∧ stem ≠ "" ∧
      ∀ c ∈ stem.toList, Glob.isPlain c = true := by
  rw [Glob.accepts_iff, ofSegment_wild wild, Glob.matches_append] at accepted
  obtain ⟨stem, rest, whole, first, last⟩ := accepted
  obtain ⟨filled, plain⟩ := Glob.matches_wildcard.mp first
  rw [Glob.matches_letters] at last
  refine ⟨String.ofList stem, ?_, ?_, by simpa using plain⟩
  · apply String.ext
    rw [whole, last, FileKind.scriptName_toList]
    simp
  · simpa using filled

theorem accepts_asked (asks : Asks .type item) {name : String}
    (accepted : (Glob.ofSegment (FileKind.scriptName item verb)).accepts name = true) :
    ∃ stem, name = FileKind.scriptName stem verb ∧ stem ≠ "" ∧ '.' ∉ stem.toList := by
  have wild {mark : Char} (wild : mark = '?' ∨ mark = '*')
      (accepted : (Glob.ofSegment (FileKind.scriptName (String.singleton mark) verb)).accepts
        name = true) :
      ∃ stem, name = FileKind.scriptName stem verb ∧ stem ≠ "" ∧ '.' ∉ stem.toList := by
    obtain ⟨stem, whole, filled, plain⟩ := accepts_wild wild accepted
    exact ⟨stem, whole, filled, fun dot => absurd (plain '.' dot) (by decide)⟩
  rcases asks with (rfl | identifier) | ⟨-, rfl⟩
  · exact wild (.inl rfl) accepted
  · have tame := Path.not_isWildcard_of_isIdentifier identifier
    exact ⟨item, (FileKind.accepts_scriptName tame).mp accepted,
      (Name.isIdentifier_letters identifier).1, Name.not_mem_isIdentifier identifier (by decide)⟩
  · exact wild (.inr rfl) accepted

/-- An asterisk stands for the names of folders that a question mark stands for. -/
theorem chosen_asked (asks : Asks .type item) {name : String} (chosen : Plan.Chosen item name) :
    '.' ∉ name.toList := by
  rcases asks with part | ⟨-, rfl⟩
  · exact chosen_item part chosen
  · have same : Plan.Chosen ItemClass.type.anyItem name ↔ Plan.Chosen Name.wildcard name := .rfl
    exact chosen_item (.inl rfl) (same.mp chosen)

/-- A name before the verb can be held as well. -/
theorem holdable_of_scriptName (holdable : Path.Holdable (FileKind.scriptName item verb))
    (filled : item ≠ "") (plain : '.' ∉ item.toList) : Path.Holdable item := by
  have letters := FileKind.scriptName_toList item verb
  have inside : ∀ {c}, c ∈ item.toList → c ∈ (FileKind.scriptName item verb).toList := by
    intro c member
    rw [letters]
    exact List.mem_append_left _ member
  refine ⟨⟨filled, ?_, ?_, fun slash => holdable.1.free (inside slash)⟩,
    fun null => holdable.2 (inside null)⟩
  · rintro rfl
    exact plain (by decide)
  · rintro rfl
    exact plain (by decide)

/-- Nor is it a pattern, if the whole is none. -/
theorem literal_of_scriptName
    (literal : Path.isWildcard (FileKind.scriptName item verb) = false) :
    Path.isWildcard item = false := by
  have letters := FileKind.scriptName_toList item verb
  have inside : ∀ {c}, c ∈ item.toList → c ∈ (FileKind.scriptName item verb).toList := by
    intro c member
    rw [letters]
    exact List.mem_append_left _ member
  obtain ⟨question, asterisk, brace⟩ := Path.not_isWildcard_iff.mp literal
  exact Path.not_isWildcard_iff.mpr ⟨fun member => question (inside member),
    fun member => asterisk (inside member), fun member => brace (inside member)⟩

section Reading

variable {snapshot : Snapshot} (tidy : snapshot.Tidy) (orderly : snapshot.Orderly)

include tidy orderly

/-- What is found in the folders of items is in a folder that the item stands for. -/
theorem hits_folder {directory file : String} (plain : Path.isWildcard directory = false)
    (whole : Path.isWildcard file = false)
    (hits : Hits snapshot ["schemas", schema, directory, item] (FileKind.scriptName file verb)
      path) :
    ∃ inside name, Path.segments path =
        ["schemas", inside, directory, name, FileKind.scriptName file verb] ∧
      Literal inside ∧ Literal name ∧ Plan.Chosen schema inside ∧ Plan.Chosen item name := by
  obtain ⟨stands, each, accepted⟩ := hits
  have folders := stands.literal tidy orderly
  have parts := stands.segments
  simp only [List.forall₂_cons_left_iff, List.forall₂_nil_left_iff] at each
  obtain ⟨_, _, first, ⟨inside, _, second, ⟨_, _, third, ⟨name, _, fourth, rfl, rfl⟩, rfl⟩,
    rfl⟩, rfl⟩ := each
  refine ⟨inside, name, ?_, folders inside (by simp), folders name (by simp), second, fourth⟩
  rw [parts, (chosen_literal (by decide)).mp first, (chosen_literal plain).mp third,
    (FileKind.accepts_scriptName whole).mp accepted]
  rfl

/-- What is found among types is named for a type, without a dot. -/
theorem hits_script (asks : Asks .type item)
    (hits : Hits snapshot ["schemas", schema, "types"] (FileKind.scriptName item verb) path) :
    ∃ inside name, Path.segments path =
        ["schemas", inside, "types", FileKind.scriptName name verb] ∧
      Literal inside ∧ Path.Holdable name ∧ '.' ∉ name.toList ∧ Plan.Chosen schema inside ∧
      (snapshot.Literal → Path.isWildcard name = false) ∧
      (Path.isWildcard item = false → name = item) := by
  obtain ⟨stands, each, accepted⟩ := hits
  have folders := stands.literal tidy orderly
  have parts := stands.segments
  simp only [List.forall₂_cons_left_iff, List.forall₂_nil_left_iff] at each
  obtain ⟨_, _, first, ⟨inside, _, second, ⟨_, _, third, rfl, rfl⟩, rfl⟩, rfl⟩ := each
  obtain ⟨name, rfl, filled, plain⟩ := accepts_asked asks accepted
  have holdable : Path.Holdable (FileKind.scriptName name verb) := tidy.held stands.file_held
  refine ⟨inside, name, ?_, folders inside (by simp),
    holdable_of_scriptName holdable filled plain, plain, second,
    fun literal => literal_of_scriptName (stands.file_literal tidy literal).literal, fun whole =>
      FileKind.scriptName_inj ((FileKind.accepts_scriptName whole).mp accepted)⟩
  rw [parts, (chosen_literal (by decide)).mp first, (chosen_literal (by decide)).mp third]
  rfl

end Reading

section Items

variable (tidy : planner.snapshot.Tidy) (orderly : planner.snapshot.Orderly)

include tidy orderly

/-- What is found for an item is a file of an item that has a name without dots. Only files may have
names of patterns. -/
theorem hits_named (asks : Asks items item)
    (hits : Hits planner.snapshot (items.primary.spot .create schema item).1
      (items.primary.spot .create schema item).2 path) :
    ∃ inside name, path = items.primary.pathOf .create inside name ∧ Literal inside ∧
      Path.Holdable name ∧ '.' ∉ name.toList ∧ Plan.Chosen schema inside ∧
      (items ≠ .type ∨ planner.snapshot.Literal → Path.isWildcard name = false) ∧
      (Path.isWildcard item = false → name = item) := by
  rcases ItemClass.kinds_cases items.primary_mem with ⟨apart, file, placed⟩ | ⟨rfl, types, none⟩
  · have part : Name.IsPart item := asks.resolve_right fun types => apart types.1
    rw [FileKind.spot_placed placed] at hits
    obtain ⟨inside, name, parts, insideFits, nameFits, chosen, each⟩ := hits_folder tidy orderly
      (FileKind.directory_placed placed).2 (FileKind.file_placed placed).2 hits
    refine ⟨inside, name, ?_, insideFits, nameFits.holdable, chosen_item part each, chosen,
      fun _ => nameFits.literal, fun whole => (chosen_literal whole).mp each⟩
    rw [FileKind.pathOf, FileKind.spot_placed placed, ← Path.ofSegments_segments path, parts]
    rfl
  · rw [FileKind.spot_type none] at hits
    obtain ⟨inside, name, parts, insideFits, holdable, plain, chosen, unmarked, same⟩ :=
      hits_script tidy orderly asks hits
    refine ⟨inside, name, ?_, insideFits, holdable, plain, chosen,
      fun either => unmarked (either.resolve_left fun apart => apart rfl), same⟩
    rw [FileKind.pathOf, FileKind.spot_type none, ← Path.ofSegments_segments path, parts]
    rfl

variable (literal : planner.snapshot.Literal)

include literal

theorem hits_asked (asks : Asks items item)
    (hits : Hits planner.snapshot (items.primary.spot .create schema item).1
      (items.primary.spot .create schema item).2 path) :
    ∃ inside name, path = items.primary.pathOf .create inside name ∧ Literal inside ∧
      Literal name ∧ '.' ∉ name.toList ∧ Plan.Chosen schema inside := by
  obtain ⟨inside, name, same, insideFits, holdable, plain, chosen, unmarked, -⟩ :=
    hits_named tidy orderly asks hits
  exact ⟨inside, name, same, insideFits, ⟨holdable, unmarked (.inr literal)⟩, plain, chosen⟩

/-- Types are those of the files that were found. -/
theorem itemsOf_asked (schemaFits : Literal schema) {found names : List String} {name : String}
    (hits : ∀ path ∈ found, Hits planner.snapshot
      (items.primary.spot .create schema items.anyItem).1
      (items.primary.spot .create schema items.anyItem).2 path)
    (listed : (planner.itemsOf items schema found).outcome = .ok names) (among : name ∈ names) :
    Literal name ∧ (items = .type → items.primary.pathOf .create schema name ∈ found) := by
  by_cases folders : items = .type
  · subst folders
    cases listed
    obtain ⟨⟨read, _⟩, within, rfl⟩ := List.mem_map.mp among
    obtain ⟨path, held, same⟩ := List.mem_filterMap.mp within
    obtain ⟨inside, name, rfl, insideFits, nameFits, plain, chosen⟩ :=
      hits_asked tidy orderly literal (.inr ⟨rfl, rfl⟩) (hits path held)
    obtain rfl := (chosen_literal schemaFits.literal).mp chosen
    rw [FileKind.schemaItem_pathOf (ItemClass.primary_mem .type) insideFits.holdable.1
      nameFits.holdable.1 plain] at same
    cases same
    exact ⟨nameFits, fun _ => held⟩
  · obtain ⟨all, spelled, fits⟩ := itemsOf_spec tidy orderly folders schemaFits found
    rw [spelled] at listed
    cases listed
    exact ⟨fits name among, fun types => absurd types folders⟩

end Items

section Events

variable (tidy : planner.snapshot.Tidy) (orderly : planner.snapshot.Orderly)

include tidy orderly

theorem mem_emitFound_iff {item : Option String} {segments : List String} {file : String}
    (seeks : Seeks kind verb schema item segments file) :
    planner.runs path ∈ (planner.emitFound kind verb (some schema) item).events ↔
      Hits planner.snapshot segments file path := by
  obtain ⟨paths, emitted, -, found⟩ := emitFound_hits tidy orderly seeks
  rw [emitted, ← found]
  exact mem_runs

theorem hits_of_emitFound {item : Option String} {segments : List String} {file : String}
    {paths : List String} (seeks : Seeks kind verb schema item segments file)
    (found : (planner.emitFound kind verb (some schema) item).outcome = .ok paths)
    (among : path ∈ paths) : Hits planner.snapshot segments file path := by
  obtain ⟨all, emitted, -, each⟩ := emitFound_hits tidy orderly seeks
  rw [emitted] at found
  cases found
  exact (each path).mp among

theorem hits_of_emit {item : Option String} {segments : List String} {file : String}
    (seeks : Seeks kind verb schema item segments file)
    (member : planner.runs path ∈ (planner.emit kind verb (some schema) item).events) :
    Hits planner.snapshot segments file path := by
  rcases Draft.mem_andThen member with found | ⟨_, -, none⟩
  · exact (mem_emitFound_iff tidy orderly seeks).mp found
  · cases none

/-- What is planned along with an item belongs to it. -/
theorem mem_attach (schemaFits : Literal schema) (itemFits : Literal item)
    (member : planner.runs path ∈ (planner.attach items schema item).events) :
    ∃ kind ∈ items.attachments, path = kind.pathOf .create schema item ∧
      planner.snapshot.Shows path := by
  obtain ⟨kind, among, planned⟩ := Draft.mem_each member
  have has := ItemClass.attachment_mem among
  have hits := hits_of_emit tidy orderly (seeks_spot has schemaFits.sought itemFits.sought) planned
  refine ⟨kind, among, hits_literal has schemaFits itemFits hits, ?_⟩
  obtain ⟨stands, -, -⟩ := hits
  exact stands.shows

theorem mem_planForeignKeys {schemas : List String} (fits : ∀ schema ∈ schemas, Literal schema)
    (member : planner.runs path ∈ (planner.planForeignKeys verb schemas).events) :
    (Path.segments path).getLast? = some (FileKind.scriptName "foreign-keys" verb) := by
  obtain ⟨schema, among, planned⟩ := Draft.mem_each member
  obtain ⟨stands, -, accepted⟩ :=
    hits_of_emit tidy orderly (seeks_foreignKeys (fits schema among).sought none) planned
  rw [stands.segments, (FileKind.accepts_scriptName (by decide)).mp accepted]
  simp

theorem foreignKeys_apart {schemas : List String} (has : kind ∈ items.kinds)
    (folders : items ≠ .type) (schemaFits : Literal schema) (itemFits : Literal item)
    (fits : ∀ schema ∈ schemas, Literal schema) :
    planner.runs (kind.pathOf .create schema item) ∉
      (planner.planForeignKeys .create schemas).events := by
  intro member
  have last := mem_planForeignKeys tidy orderly fits member
  obtain ⟨file, placed⟩ := items.placed folders kind has
  rw [FileKind.segments_pathOf has schemaFits.holdable.1 itemFits.holdable.1] at last
  refine (ItemClass.script_apart folders).2 .create kind has ?_
  rw [← last, FileKind.spot_placed placed, FileKind.script?, placed]
  simp

end Events

/-- Wherever a file that belongs to an item is planned, the file of the item itself is before it. -/
def Follows (planner : Planner) (items : ItemClass) (kind : FileKind) (schema item : String)
    (events : List Draft.Event) : Prop :=
  Draft.Leads (planner.runs (items.primary.pathOf .create schema item))
    (planner.runs (kind.pathOf .create schema item)) events

section Follows

variable (tidy : planner.snapshot.Tidy) (orderly : planner.snapshot.Orderly)
  (literal : planner.snapshot.Literal) (belongs : kind ∈ items.attachments)
  (schemaFits : Literal schema) (itemFits : Literal item)

include tidy orderly belongs schemaFits itemFits

/-- What belongs to the item is only planned along with it. -/
theorem of_mem_attach {otherSchema otherItem : String} (otherSchemaFits : Literal otherSchema)
    (otherItemFits : Literal otherItem)
    (member : planner.runs (kind.pathOf .create schema item) ∈
      (planner.attach items otherSchema otherItem).events) :
    otherSchema = schema ∧ otherItem = item ∧
      planner.snapshot.Shows (kind.pathOf .create schema item) := by
  obtain ⟨other, among, same, shows⟩ :=
    mem_attach tidy orderly otherSchemaFits otherItemFits member
  have alike : items = .type → kind = other := by
    rintro rfl
    rw [List.mem_singleton.mp belongs, List.mem_singleton.mp among]
  obtain ⟨rfl, rfl⟩ := FileKind.pathOf_inj schemaFits.holdable.1 itemFits.holdable.1
    otherSchemaFits.holdable.1 otherItemFits.holdable.1 (ItemClass.attachment_mem belongs)
    (ItemClass.attachment_mem among) alike same
  exact ⟨rfl, rfl, shows⟩

include literal

theorem emitFound_apart {wanted asked : String} (sought : Sought wanted)
    (asks : Asks items asked) : planner.runs (kind.pathOf .create schema item) ∉
      (planner.emitFound items.primary .create (some wanted) (some asked)).events := by
  intro member
  have hits := (mem_emitFound_iff tidy orderly
    (seeks_spot items.primary_mem sought asks.sought)).mp member
  obtain ⟨inside, name, same, insideFits, nameFits, -, -⟩ :=
    hits_asked tidy orderly literal asks hits
  exact FileKind.pathOf_primary insideFits.holdable.1 nameFits.holdable.1 schemaFits.holdable.1
    itemFits.holdable.1 belongs same.symm

/-- Where items are those of files that were found, what belongs to one follows its file. -/
theorem planListedItems_follows {command : Command}
    (qualified : ∀ name ∈ command.itemNames, Name.IsQualified name) :
    planner.Follows items kind schema item
      (planner.planListedItems command .create items).events := by
  refine .each fun name member => ?_
  obtain ⟨wanted, asked, split, wantedPart, askedPart⟩ := qualified name member
  simp only [Command.splitName, split, Draft.bind_eq]
  have asks : Asks items asked := .inl askedPart
  have sought := Sought.of_part wantedPart
  have seeks : Seeks items.primary .create wanted (some asked) _ _ :=
    seeks_spot items.primary_mem sought asks.sought
  refine .andThen (.of_absent List.not_mem_nil) fun pair same _ => .inr ?_
  cases same
  -- what belongs to an item is planned for a path that was found, which names the item
  refine .andThen (.of_absent (emitFound_apart tidy orderly literal belongs schemaFits itemFits
    sought asks)) fun paths found later => .inl ?_
  obtain ⟨path, among, attached⟩ := Draft.mem_each later
  have hits := hits_of_emitFound tidy orderly seeks found among
  obtain ⟨inside, read, rfl, insideFits, readFits, plain, -⟩ :=
    hits_asked tidy orderly literal asks hits
  rw [FileKind.schemaItem_pathOf items.primary_mem insideFits.holdable.1 readFits.holdable.1 plain]
    at attached
  obtain ⟨rfl, rfl, -⟩ :=
    of_mem_attach tidy orderly belongs schemaFits itemFits insideFits readFits attached
  exact (mem_emitFound_iff tidy orderly seeks).mpr hits

/-- Where items are the folders of a schema, what belongs to one follows its file if that is
planned. -/
theorem planSchemaItems_follows {inside : String} (insideFits : Literal inside)
    (planned : items ≠ .type → planner.snapshot.Shows (kind.pathOf .create schema item) →
      planner.runs (items.primary.pathOf .create schema item) ∈
        (planner.emitFound items.primary .create (some schema) (some items.anyItem)).events) :
    planner.Follows items kind schema item
      (planner.planSchemaItems .create items inside).events := by
  have seeks : Seeks items.primary .create inside (some items.anyItem) _ _ :=
    seeks_spot items.primary_mem insideFits.sought Asks.anyItem.sought
  refine .andThen (.of_absent (emitFound_apart tidy orderly literal belongs schemaFits itemFits
    insideFits.sought .anyItem)) fun paths found later => .inl ?_
  split at later
  · rcases Draft.mem_andThen later with listing | ⟨names, listed, attached⟩
    · exact absurd listing (by cases items <;> exact List.not_mem_nil)
    · obtain ⟨name, among, attached⟩ := Draft.mem_each attached
      obtain ⟨nameFits, typed⟩ := itemsOf_asked tidy orderly literal insideFits
        (fun path held => hits_of_emitFound tidy orderly seeks found held) listed among
      obtain ⟨rfl, rfl, shows⟩ :=
        of_mem_attach tidy orderly belongs schemaFits itemFits insideFits nameFits attached
      -- types are read from what was found; folders are listed, whatever they hold
      by_cases types : items = .type
      · exact (mem_emitFound_iff tidy orderly seeks).mpr
          (hits_of_emitFound tidy orderly seeks found (typed types))
      · exact planned types shows
  · cases later

theorem planAllItems_follows {command : Command}
    (planned : items ≠ .type → planner.snapshot.Shows (kind.pathOf .create schema item) →
      planner.runs (items.primary.pathOf .create schema item) ∈
        (planner.emitFound items.primary .create (some schema) (some items.anyItem)).events) :
    planner.Follows items kind schema item
      (planner.planAllItems command .create items).events := by
  obtain ⟨all, listed, -, fits, -⟩ := schemas_spec tidy orderly
  unfold planAllItems
  rw [listed]
  refine .andThen (.of_absent List.not_mem_nil) fun _ same _ => .inr ?_
  cases same
  dsimp only
  rw [if_neg (by simp)]
  refine .andThen (.each fun inside member => planSchemaItems_follows tidy orderly literal belongs
    schemaFits itemFits (fits inside (Command.mem_filterSchemas member)) planned) fun _ _ _ =>
      .inr (.of_absent ?_)
  split
  · rename_i creating
    exact foreignKeys_apart tidy orderly (ItemClass.attachment_mem belongs) (by simp [creating.1])
      schemaFits itemFits fun inside member => fits inside (Command.mem_filterSchemas member)
  · exact List.not_mem_nil

end Follows

section Folders

variable (tidy : planner.snapshot.Tidy) (orderly : planner.snapshot.Orderly)
  (literal : planner.snapshot.Literal) (folders : items ≠ .type) (schemaFits : Literal schema)
  (itemFits : Literal item)

include tidy orderly literal folders schemaFits itemFits

theorem of_mem_planSchemaItems {inside : String} (insideFits : Literal inside)
    (member : planner.runs (items.primary.pathOf .create schema item) ∈
      (planner.planSchemaItems .create items inside).events) :
    '.' ∉ item.toList ∧
      planner.snapshot.HasFile (items.primary.pathOf .create schema item) := by
  have seeks : Seeks items.primary .create inside (some items.anyItem) _ _ :=
    seeks_spot items.primary_mem insideFits.sought Asks.anyItem.sought
  unfold planSchemaItems at member
  simp only [Draft.bind_eq] at member
  rcases Draft.mem_andThen member with first | ⟨found, -, later⟩
  · have hits := (mem_emitFound_iff tidy orderly seeks).mp first
    obtain ⟨_, name, same, otherFits, nameFits, plain, -⟩ :=
      hits_asked tidy orderly literal .anyItem hits
    obtain ⟨-, rfl⟩ := FileKind.pathOf_inj schemaFits.holdable.1 itemFits.holdable.1
      otherFits.holdable.1 nameFits.holdable.1 items.primary_mem items.primary_mem (fun _ => rfl)
      same
    refine ⟨plain, ?_⟩
    generalize items.primary.pathOf .create schema item = path at hits
    obtain ⟨stands, -, -⟩ := hits
    exact stands.hasFile
  · split at later
    · obtain ⟨names, spelled, others⟩ := itemsOf_spec tidy orderly folders insideFits found
      rw [spelled, Draft.ofSource_andThen] at later
      obtain ⟨name, within, attached⟩ := Draft.mem_each later
      obtain ⟨kind, belongs, same, -⟩ :=
        mem_attach tidy orderly insideFits (others name within) attached
      exact absurd same (FileKind.pathOf_primary schemaFits.holdable.1 itemFits.holdable.1
        insideFits.holdable.1 (others name within).holdable.1 belongs)
    · cases later

/-- Among items that are folders, those are planned that have their file and no dot in their
name. -/
theorem of_mem_planAllItems {command : Command}
    (member : planner.runs (items.primary.pathOf .create schema item) ∈
      (planner.planAllItems command .create items).events) :
    '.' ∉ item.toList ∧
      planner.snapshot.HasFile (items.primary.pathOf .create schema item) := by
  obtain ⟨all, listed, -, fits, -⟩ := schemas_spec tidy orderly
  have left : ∀ inside ∈ command.filterSchemas all, Literal inside :=
    fun inside member => fits inside (Command.mem_filterSchemas member)
  unfold planAllItems at member
  simp only [listed, Draft.bind_eq, Draft.ofSource_andThen] at member
  rw [if_neg (by simp)] at member
  rcases Draft.mem_andThen member with early | ⟨_, -, later⟩
  · obtain ⟨inside, among, planned⟩ := Draft.mem_each early
    exact of_mem_planSchemaItems tidy orderly literal folders schemaFits itemFits
      (left inside among) planned
  · split at later
    · exact absurd later
        (foreignKeys_apart tidy orderly items.primary_mem folders schemaFits itemFits left)
    · cases later

omit literal in
/-- An item with a file of its own and no dot in its name is found by a wildcard. -/
theorem primary_found (belongs : kind ∈ items.attachments) (plain : '.' ∉ item.toList)
    (hasFile : planner.snapshot.HasFile (items.primary.pathOf .create schema item))
    (shows : planner.snapshot.Shows (kind.pathOf .create schema item)) :
    planner.runs (items.primary.pathOf .create schema item) ∈
      (planner.emitFound items.primary .create (some schema) (some items.anyItem)).events := by
  obtain ⟨file, placed⟩ := items.placed folders _ items.primary_mem
  obtain ⟨last, beside⟩ := items.placed folders _ (ItemClass.attachment_mem belongs)
  have shown : Source.Listed.isShown
      (FileKind.scriptName file (items.primary.verbFor .create)) = true := by
    cases items <;> cases placed <;> decide
  have named : ∀ name ∈ (items.primary.spot .create schema item).1 ++
      [(items.primary.spot .create schema item).2], Path.IsName name :=
    FileKind.spot_names items.primary_mem schemaFits.holdable.1 itemFits.holdable.1
  unfold FileKind.pathOf at hasFile shows ⊢
  rw [FileKind.spot_placed beside] at shows
  rw [FileKind.spot_placed placed] at hasFile named ⊢
  -- both files are in one folder, and the name of the script needs no escapes
  obtain ⟨folderNames, fileName⟩ := List.forall_mem_append.mp named
  have stands : Stands planner.snapshot ["schemas", schema, items.directory, item]
      (FileKind.scriptName file (items.primary.verbFor .create)) :=
    ⟨folderNames, fileName _ List.mem_cons_self, hasFile,
      shows.beside (List.cons_ne_nil _ _) shown⟩
  rw [items.anyItem_folders folders]
  refine (mem_emitFound_iff tidy orderly (seeks_placed placed schemaFits.sought .wildcard)).mpr
    (.at stands ?_ ((FileKind.accepts_scriptName (FileKind.file_placed placed).2).mpr rfl))
  rw [chosen_items schemaFits (FileKind.directory_placed placed).2]
  exact ⟨rfl, (chosen_any itemFits.holdable.1).mpr plain⟩

end Folders

/-- A file that belongs to an item, and the file of the item itself. -/
structure Belongs (items : ItemClass) (schema item path primary : String) : Prop where
  attached : ∃ kind ∈ items.attachments,
    kind.render (some (kind.verbFor .create)) (some schema) (some item) = .ok path
  itself : items.primary.render (some .create) (some schema) (some item) = .ok primary

theorem Belongs.paths (schemaFits : Literal schema) (itemFits : Literal item) {primary : String}
    (belongs : Belongs items schema item path primary) :
    (∃ kind ∈ items.attachments, path = kind.pathOf .create schema item) ∧
      primary = items.primary.pathOf .create schema item := by
  have spelled {kind : FileKind} {pattern : String} (has : kind ∈ items.kinds)
      (rendered : kind.render (some (kind.verbFor .create)) (some schema) (some item) =
        .ok pattern) : pattern = kind.pathOf .create schema item := by
    rw [(seeks_spot has schemaFits.sought itemFits.sought).rendered, Except.ok.injEq] at rendered
    exact rendered.symm
  obtain ⟨⟨kind, among, rendered⟩, itself⟩ := belongs
  refine ⟨⟨kind, among, spelled (ItemClass.attachment_mem among) rendered⟩,
    spelled items.primary_mem ?_⟩
  rwa [show items.primary.verbFor .create = .create from items.verbFor_planned .create]

/-- In the plan of a command that creates items, a file that belongs to an item comes after the file
of the item itself. But where all items of a class are created, and these are folders, it is planned
also without: for an item that has no file itself, or has a dot in its name. -/
theorem plan_belonging_iff (tidy : planner.snapshot.Tidy) (orderly : planner.snapshot.Orderly)
    (literal : planner.snapshot.Literal) {text : String} {commands : List Command}
    (parsed : Command.parse Grammar.builtin text = .ok commands) {command : Command}
    (member : command ∈ commands) (root : command.root = "create") {object : String}
    {plural : Bool} (named : command.object = some object)
    (known : ItemClass.ofObject? object = some (items, plural)) {primary : String}
    (schemaFits : Literal schema) (itemFits : Literal item)
    (belongs : Belongs items schema item path primary) {State : Type}
    (database : Option (Database State)) (state : State) {before after : List Step}
    (whole : ((planner.plan command).settle database state).1.steps =
      before ++ .execFile (planner.file path) :: after) :
    .execFile (planner.file primary) ∈ before ↔
      (plural = true → items ≠ .type →
        '.' ∉ item.toList ∧ planner.snapshot.HasFile primary) := by
  obtain ⟨⟨kind, among, rfl⟩, rfl⟩ := belongs.paths schemaFits itemFits
  -- the command itself is planned first
  have created : command.root = Verb.create.name := root
  rw [plan_steps database state created] at whole
  cases before with
  | nil => cases whole
  | cons first before =>
      obtain ⟨rfl, events⟩ := List.cons.inj whole
      rw [List.mem_cons, or_iff_right (by simp)]
      constructor
      · rintro earlier rfl folders
        have planned : planner.runs (items.primary.pathOf .create schema item) ∈
            (planner.planObjects command .create).events :=
          Draft.mem_stepsOf.mp (by rw [events]; exact List.mem_append_left _ earlier)
        rw [planObjects_items named known, if_pos rfl] at planned
        exact of_mem_planAllItems tidy orderly literal folders schemaFits itemFits planned
      · intro complete
        have follows : planner.Follows items kind schema item
            (planner.planObjects command .create).events := by
          rw [planObjects_items named known]
          split <;> rename_i every
          · exact planAllItems_follows tidy orderly literal among schemaFits itemFits
              fun folders shows => primary_found tidy orderly folders schemaFits itemFits among
                (complete every folders).1 (complete every folders).2 shows
          · exact planListedItems_follows tidy orderly literal among schemaFits itemFits
              fun name listed => (Command.understood_of_parse parsed member).itemNames_isQualified
                listed
        exact follows.stepsOf events

/-- A table with its constraints, and the constraints of a table that has no file itself. -/
def constrained : Planner where
  grammar := Grammar.builtin
  snapshot := .disk ⟨".", .node (.folder (.folder "schemas" (.folder "app" (.folder "tables"
    (.folder "t" (.file "constraints.create.sql" (.text "select 2")
        (.file "table.create.sql" (.text "create table t (id)") .nil))
      (.folder "u" (.file "constraints.create.sql" (.text "select 3") .nil) .nil))
    .nil) .nil) .nil))⟩
  ref := none
  autoTransaction := true

theorem constrained_planned :
    let plan := ((constrained.plan createTables).settle (none : Option (Database Unit)) ()).1
    plan.outcome = .ok () ∧ plan.steps =
      [.runCommand "create tables", .execFile ⟨"schemas/app/tables/t/table.create.sql", none⟩,
        .execFile ⟨"schemas/app/tables/t/constraints.create.sql", none⟩,
        .execFile ⟨"schemas/app/tables/u/constraints.create.sql", none⟩] := by
  decide +kernel

theorem belongs_constraints (table : String) (fits : Literal table) :
    Belongs .table "app" table
      (Path.ofSegments ["schemas", "app", "tables", table, "constraints.create.sql"])
      (Path.ofSegments ["schemas", "app", "tables", table, "table.create.sql"]) := by
  have constraints : FileKind.place? .constraints = some ("tables", "constraints") := rfl
  have itself : FileKind.place? .table = some ("tables", "table") := rfl
  exact ⟨⟨.constraints, by decide, FileKind.render_placed constraints (by decide) fits.free⟩,
    FileKind.render_placed itself (by decide) fits.free⟩

theorem plan_belonging_iff_constrained :
    Command.parse Grammar.builtin "create tables" = .ok [createTables] ∧
      ((constrained.plan createTables).settle (none : Option (Database Unit)) ()).1.steps =
        [.runCommand "create tables", .execFile ⟨"schemas/app/tables/t/table.create.sql", none⟩] ++
          .execFile ⟨"schemas/app/tables/t/constraints.create.sql", none⟩ ::
            [.execFile ⟨"schemas/app/tables/u/constraints.create.sql", none⟩] ∧
      constrained.snapshot.HasFile "schemas/app/tables/t/table.create.sql" ∧
      .execFile ⟨"schemas/app/tables/t/table.create.sql", none⟩ ∈
        [Step.runCommand "create tables",
          .execFile ⟨"schemas/app/tables/t/table.create.sql", none⟩] := by
  have parsed : Command.parse Grammar.builtin "create tables" = .ok [createTables] := by
    decide +kernel
  have whole : ((constrained.plan createTables).settle (none : Option (Database Unit)) ()).1.steps =
      [.runCommand "create tables", .execFile ⟨"schemas/app/tables/t/table.create.sql", none⟩] ++
        .execFile ⟨"schemas/app/tables/t/constraints.create.sql", none⟩ ::
          [.execFile ⟨"schemas/app/tables/u/constraints.create.sql", none⟩] :=
    constrained_planned.2
  have hasFile : constrained.snapshot.HasFile "schemas/app/tables/t/table.create.sql" :=
    ⟨.text "create table t (id)", by decide +kernel⟩
  have tidy : constrained.snapshot.Tidy := by
    rintro folder ⟨⟩
    decide
  have orderly : constrained.snapshot.Orderly := by
    rintro folder ⟨⟩
    decide
  have literal : constrained.snapshot.Literal := by
    rintro folder ⟨⟩
    decide
  have table : Literal "t" := ⟨by decide, by decide⟩
  have plural : ItemClass.ofObject? "tables" = some (.table, true) := rfl
  have iff := plan_belonging_iff tidy orderly literal parsed List.mem_cons_self rfl rfl plural
    ⟨by decide, by decide⟩ table (belongs_constraints "t" table) (none : Option (Database Unit)) ()
    whole
  exact ⟨parsed, whole, hasFile, iff.mpr fun _ _ => ⟨by decide, hasFile⟩⟩

/-- The constraints of the other table are planned, and nothing that creates it. -/
theorem plan_belonging_without :
    Command.parse Grammar.builtin "create tables" = .ok [createTables] ∧
      constrained.snapshot.Tidy ∧ constrained.snapshot.Orderly ∧ constrained.snapshot.Literal ∧
      Belongs .table "app" "u" "schemas/app/tables/u/constraints.create.sql"
        "schemas/app/tables/u/table.create.sql" ∧
      let plan := ((constrained.plan createTables).settle (none : Option (Database Unit)) ()).1
      plan.outcome = .ok () ∧
        .execFile ⟨"schemas/app/tables/u/constraints.create.sql", none⟩ ∈ plan.steps ∧
        .execFile ⟨"schemas/app/tables/u/table.create.sql", none⟩ ∉ plan.steps := by
  obtain ⟨ended, steps⟩ := constrained_planned
  refine ⟨by decide +kernel, ?tidy, ?orderly, ?literal,
    belongs_constraints "u" ⟨by decide, by decide⟩, ended, ?_, ?_⟩
  case tidy | orderly | literal =>
    rintro folder ⟨⟩
    decide
  all_goals
    rw [steps]
    decide

end Planner

end Rollout
