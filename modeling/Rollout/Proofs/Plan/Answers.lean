import Rollout.Proofs.Plan.Alike
import Rollout.Proofs.Plan.ForeignKeys
import Rollout.Proofs.Plan.Tried
import Rollout.Proofs.Text.Ordered

/-!
What the outcome of a command on objects tells about the source tree. Planning it comes to its end
just if a file matches one of the patterns that were tried; otherwise nothing was found, or the
tree has no schema to try a pattern in.
-/

namespace Rollout

namespace FileKind

/-- The name of a type may hold places itself, which the verb fills as well. -/
def filledName (item : String) (verb : Verb) : String :=
  String.ofList (Text.replaceAll Placeholder.verb.token verb.name.toList item.toList)

theorem mem_filledName {item : String} {verb : Verb} {c : Char}
    (member : c ∈ (filledName item verb).toList) : c ∈ verb.name.toList ∨ c ∈ item.toList := by
  rw [filledName, String.toList_ofList] at member
  exact Text.mem_replaceAfter member

theorem filledName_of_free {item : String} (free : '\x7b' ∉ item.toList) (verb : Verb) :
    filledName item verb = item := by
  rw [filledName, Text.replaceAll_of_absent (occurs_token_free free), String.ofList_toList]

theorem filledName_holdable {item : String} (verb : Verb) (itemFits : Path.Holdable item) :
    Path.Holdable (scriptName (filledName item verb) verb) := by
  have verbFits : '/' ∉ verb.name.toList ∧ '\x00' ∉ verb.name.toList ∧
      '\x00' ∉ '.' :: (verb.name.toList ++ ".sql".toList) := by
    cases verb <;> decide
  obtain ⟨slash, null, tail⟩ := verbFits
  refine ⟨scriptName_isName (fun member => ?_) verb, fun member => ?_⟩
  · exact (mem_filledName member).elim slash itemFits.1.free
  · rw [scriptName_toList] at member
    rcases List.mem_append.mp member with inside | behind
    · exact (mem_filledName inside).elim null itemFits.2
    · exact tail behind

/-- What is left to fill in once the name of a type stands in the template. -/
theorem fill_verb_type (template item : String) (verb : Verb) :
    fill template .verb (some verb.name)
        (item.toList ++ '.' :: (Placeholder.verb.token ++ ".sql".toList)) =
      .ok (scriptName (filledName item verb) verb).toList := by
  have absent : Text.occurs Placeholder.verb.token ".sql".toList = false := by decide
  have held : Text.occurs Placeholder.verb.token
      (item.toList ++ '.' :: (Placeholder.verb.token ++ ".sql".toList)) = true :=
    Text.occurs_append (by decide) item.toList
  have behind : Text.replaceAll Placeholder.verb.token verb.name.toList
      (Placeholder.verb.token ++ ".sql".toList) = verb.name.toList ++ ".sql".toList := by
    have begins : Text.replaceAll Placeholder.verb.token verb.name.toList
        (Placeholder.verb.token ++ ".sql".toList) = verb.name.toList ++
          Text.replaceAll Placeholder.verb.token verb.name.toList ".sql".toList :=
      Text.replaceAll_append ".sql".toList
    rw [begins, Text.replaceAll_of_absent absent]
  -- the dot is in no place, so the name and what is behind it are filled apart
  have replaced : Text.replaceAll Placeholder.verb.token verb.name.toList
      (item.toList ++ '.' :: (Placeholder.verb.token ++ ".sql".toList)) =
        (scriptName (filledName item verb) verb).toList := by
    rw [Text.replaceAll, Text.replaceAfter_before (by decide) (by decide) _ 0 (Nat.zero_le _),
      behind, scriptName_toList]
    simp [filledName, Text.replaceAll]
  simp only [fill, held, if_true, replaced]

/-- The file of a type is looked for under any name that a type can have. -/
theorem render_typePrivileges {schema : String} (item : String) (verb : Verb)
    (schemaFree : '\x7b' ∉ schema.toList) :
    typePrivileges.render (some verb) (some schema) (some item) = .ok (Path.ofSegments
      (["schemas", schema, "types"] ++ [scriptName (filledName item verb) verb])) := by
  have shape : typePrivileges.template.toList = "schemas/".toList ++ (Placeholder.schema.token ++
      ("/types/".toList ++ (Placeholder.item.token ++
        '.' :: (Placeholder.verb.token ++ ".sql".toList)))) := rfl
  have unbraced : '\x7b' ∉ "schemas/".toList ++ schema.toList ++ "/types/".toList := by
    simp [schemaFree]
  have first : fill typePrivileges.template .schema (some schema) typePrivileges.template.toList =
      .ok ("schemas/".toList ++ (schema.toList ++ ("/types/".toList ++
        (Placeholder.item.token ++ '.' :: (Placeholder.verb.token ++ ".sql".toList))))) := by
    rw [shape]
    exact fill_place (by decide) (by decide)
  have second : fill typePrivileges.template .item (some item) ("schemas/".toList ++
        (schema.toList ++ ("/types/".toList ++ (Placeholder.item.token ++
          '.' :: (Placeholder.verb.token ++ ".sql".toList))))) =
      .ok ("schemas/".toList ++ (schema.toList ++ ("/types/".toList ++
        (item.toList ++ '.' :: (Placeholder.verb.token ++ ".sql".toList))))) := by
    have absent : Text.occurs Placeholder.item.token
        ('.' :: (Placeholder.verb.token ++ ".sql".toList)) = false := by decide
    simpa only [List.append_assoc] using fill_place unbraced absent
  have third : fill typePrivileges.template .verb (some verb.name) ("schemas/".toList ++
        (schema.toList ++ ("/types/".toList ++
          (item.toList ++ '.' :: (Placeholder.verb.token ++ ".sql".toList))))) =
      .ok ("schemas/".toList ++ (schema.toList ++ ("/types/".toList ++
        (scriptName (filledName item verb) verb).toList))) := by
    have whole : fill typePrivileges.template .verb (some verb.name)
        ("schemas/".toList ++ schema.toList ++ "/types/".toList ++
          (item.toList ++ '.' :: (Placeholder.verb.token ++ ".sql".toList))) = _ :=
      fill_append_of_free typePrivileges.template unbraced
    rw [fill_verb_type] at whole
    simpa only [List.append_assoc, Except.map] using whole
  simp only [render, first, second, Option.map_some, third, Except.map]
  refine congrArg Except.ok (String.ext ?_)
  simp [Path.ofSegments]

/-- For kinds of files that a schema has in its directory, the name before the verb. -/
def schemaFile? : FileKind → Option String
  | schema => some "schema"
  | schemaPrivileges => some "privileges"
  | _ => none

theorem file_ofSchema {kind : FileKind} {file : String}
    (ofSchema : kind.schemaFile? = some file) :
    '/' ∉ file.toList ∧ Path.isWildcard file = false := by
  cases kind <;> cases ofSchema <;> decide

theorem render_schema {kind : FileKind} {schema file : String}
    (ofSchema : kind.schemaFile? = some file) (verb : Verb) (free : '\x7b' ∉ schema.toList) :
    kind.render (some verb) (some schema) none =
      .ok (Path.ofSegments (["schemas", schema] ++ [scriptName file verb])) := by
  have shape : kind.template.toList = "schemas/".toList ++ (Placeholder.schema.token ++
      (("/" ++ file ++ ".").toList ++ (Placeholder.verb.token ++ ".sql".toList))) := by
    cases kind <;> cases ofSchema <;> rfl
  have unbraced : '\x7b' ∉ ("/" ++ file ++ ".").toList := by
    cases kind <;> cases ofSchema <;> decide
  rw [render_of_schema shape ⟨by decide, unbraced, by decide⟩ free]
  refine congrArg Except.ok (String.ext ?_)
  simp [Path.ofSegments, scriptName]

end FileKind

/-- Is there a file that the pattern matches? At a revision its path must be listed as it is. -/
def Snapshot.Holds (snapshot : Snapshot) (pattern : String) : Prop :=
  ∃ names, snapshot.IsFile names ∧ snapshot.Shows (Path.ofSegments names) ∧
    Plan.Matches (Path.segments pattern) names

namespace Planner

variable {Value Next : Type} {planner : Planner}

/-- The draft comes to its end with such a value. It runs files only, and some just if there are
any for the patterns that it tries. -/
structure Answers (planner : Planner) (values : Value → Prop) (draft : Draft Value) : Prop where
  ends : ∃ value, draft.outcome = .ok value ∧ values value
  plain : ∀ event ∈ draft.events,
    (∃ pattern, event = .tried pattern) ∨ ∃ path, event = planner.runs path
  agrees : (∃ path, planner.runs path ∈ draft.events) ↔
    ∃ pattern, .tried pattern ∈ draft.events ∧ planner.snapshot.Holds pattern

namespace Answers

variable {values : Value → Prop} {results : Next → Prop}

theorem done {value : Value} (held : values value) : planner.Answers values (.done value) :=
  ⟨⟨value, rfl, held⟩, fun _ member => absurd member List.not_mem_nil, by simp [Draft.done]⟩

theorem ofSource {value : Value} (held : values value) :
    planner.Answers values (.ofSource (.ok value)) :=
  ⟨⟨value, rfl, held⟩, fun _ member => absurd member List.not_mem_nil,
    by simp [Draft.ofSource]⟩

theorem andThen {draft : Draft Value} {next : Value → Draft Next}
    (first : planner.Answers values draft)
    (rest : ∀ value, values value → planner.Answers results (next value)) :
    planner.Answers results (draft.andThen next) := by
  obtain ⟨⟨value, ended, held⟩, plain, agrees⟩ := first
  obtain ⟨⟨result, last, holds⟩, quiet, later⟩ := rest value held
  have events : (draft.andThen next).events = draft.events ++ (next value).events := by
    simp [Draft.andThen, ended]
  refine ⟨⟨result, by simp [Draft.andThen, ended, last], holds⟩, ?_, ?_⟩
  · rw [events]
    exact List.forall_mem_append.mpr ⟨plain, quiet⟩
  · simp only [events, List.mem_append, exists_or, or_and_right, agrees, later]

theorem weaken {draft : Draft Value} {others : Value → Prop}
    (answers : planner.Answers values draft) (held : ∀ value, values value → others value) :
    planner.Answers others draft := by
  obtain ⟨⟨value, ended, fits⟩, plain, agrees⟩ := answers
  exact ⟨⟨value, ended, held value fits⟩, plain, agrees⟩

theorem each {draft : Value → Draft Unit} {list : List Value}
    (all : ∀ value ∈ list, planner.Answers (fun _ => True) (draft value)) :
    planner.Answers (fun _ => True) (Draft.each draft list) := by
  induction list with
  | nil => exact done trivial
  | cons value rest ih =>
      obtain ⟨here, later⟩ := List.forall_mem_cons.mp all
      exact andThen here fun _ _ => ih later

end Answers

section Emitting

variable {kind : FileKind} {verb : Verb} {schema item : Option String} {segments : List String}
  {pattern : String} {paths : List String} {values : List String → Prop}

theorem answers_of_found (emitted : planner.emitFound kind verb schema item =
      ⟨.tried pattern :: paths.map planner.runs, .ok paths⟩)
    (found : (∃ path, path ∈ paths) ↔ planner.snapshot.Holds pattern) (held : values paths) :
    planner.Answers values (planner.emitFound kind verb schema item) := by
  rw [emitted]
  refine ⟨⟨paths, rfl, held⟩, ?_, ?_⟩
  · refine List.forall_mem_cons.mpr ⟨.inl ⟨pattern, rfl⟩, fun event member => ?_⟩
    obtain ⟨path, -, rfl⟩ := List.mem_map.mp member
    exact .inr ⟨path, rfl⟩
  · have ran : (∃ path, planner.runs path ∈ .tried pattern :: paths.map planner.runs) ↔
        ∃ path, path ∈ paths := exists_congr fun path => mem_runs
    have tries : (∃ other, .tried other ∈ .tried pattern :: paths.map planner.runs ∧
        planner.snapshot.Holds other) ↔ planner.snapshot.Holds pattern := by
      simp [runs]
    rw [ran, tries, found]

variable (tidy : planner.snapshot.Tidy) (orderly : planner.snapshot.Orderly)

include tidy orderly

omit orderly in
/-- A file matches a pattern if it stands where the pattern leads. -/
theorem holds_iff {file : String} (holdable : ∀ segment ∈ segments, Path.Holdable segment)
    (free : '/' ∉ file.toList) :
    planner.snapshot.Holds (Path.ofSegments (segments ++ [file])) ↔
      ∃ path, Hits planner.snapshot segments file path := by
  have same : Path.segments (Path.ofSegments (segments ++ [file])) = segments ++ [file] := by
    refine Text.splitAt_intercalate (by simp) (List.forall_mem_append.mpr ⟨?_, ?_⟩)
    · exact fun segment member => (holdable segment member).1.free
    · exact List.forall_mem_singleton.mpr free
  unfold Snapshot.Holds
  rw [same]
  constructor
  · rintro ⟨names, isFile, shows, agrees⟩
    obtain ⟨folders, name, rfl⟩ := agrees.filled
    obtain ⟨each, accepted⟩ := Plan.matches_append.mp agrees
    have stands : Stands planner.snapshot folders name := .of_isFile tidy isFile shows
    exact ⟨_, .at stands ((Plan.folderMatches_of_chosen stands.named).mpr each) accepted⟩
  · rintro ⟨path, stands, each, accepted⟩
    exact ⟨_, stands.isFile, stands.shows,
      Plan.matches_append.mpr ⟨(Plan.folderMatches_of_chosen stands.named).mp each, accepted⟩⟩

/-- A kind of file that is looked for by the segments of a pattern. -/
theorem emitFound_answers {file : String}
    (rendered : kind.render (some (kind.verbFor verb)) schema item =
      .ok (Path.ofSegments (segments ++ [file])))
    (holdable : ∀ segment ∈ segments, Path.Holdable segment) (free : '/' ∉ file.toList) :
    planner.Answers (fun paths => ∀ path ∈ paths, Hits planner.snapshot segments file path)
      (planner.emitFound kind verb schema item) := by
  have plain (name : String) (accepted : (Glob.ofSegment file).accepts name = true) :
      name.toList.getLast? ≠ some '"' := by
    refine FileKind.render_accepts rendered ?_
    rwa [Plan.splitFile_ofSegments free]
  obtain ⟨paths, expanded, -, hits⟩ := expand_hits tidy orderly holdable free plain
  refine answers_of_found (emitFound_eq rendered expanded) ?_ fun path => (hits path).mp
  rw [holds_iff tidy holdable free]
  exact exists_congr hits

theorem Seeks.answers {schema : String} {file : String}
    (seeks : Seeks kind verb schema item segments file) :
    planner.Answers (fun paths => ∀ path ∈ paths, Hits planner.snapshot segments file path)
      (planner.emitFound kind verb (some schema) item) :=
  emitFound_answers tidy orderly seeks.rendered seeks.holdable seeks.free

omit tidy orderly in
theorem emit_answers {schema : Option String}
    (found : planner.Answers values (planner.emitFound kind verb schema item)) :
    planner.Answers (fun _ => True) (planner.emit kind verb schema item) :=
  found.andThen fun _ _ => .done trivial

end Emitting

section Objects

variable {verb : Verb} {items : ItemClass} {kind : FileKind} {schema item : String}
  {schemas : List String} {command : Command}

/-- A name that an item of the class can have in a tree. Folders have no names of patterns. -/
structure Owner (items : ItemClass) (item : String) : Prop where
  holdable : Path.Holdable item
  literal : items ≠ .type → Path.isWildcard item = false

theorem Literal.owner (literal : Literal item) : Owner items item :=
  ⟨literal.holdable, fun _ => literal.literal⟩

theorem seeks_typePrivileges (schemaFits : Literal schema) (itemFits : Path.Holdable item) :
    Seeks .typePrivileges verb schema (some item) ["schemas", schema, "types"]
      (FileKind.scriptName (FileKind.filledName item (FileKind.typePrivileges.verbFor verb))
        (FileKind.typePrivileges.verbFor verb)) := by
  refine ⟨FileKind.render_typePrivileges item _ schemaFits.free, ?_,
    (FileKind.filledName_holdable _ itemFits).1.free, fun name => FileKind.scriptName_ends⟩
  simp only [List.forall_mem_cons]
  exact ⟨by decide, schemaFits.holdable, by decide, nofun⟩

theorem seeks_owned (schemaFits : Literal schema) (owner : Owner items item)
    (member : kind ∈ items.attachments) :
    ∃ segments file, Seeks kind .create schema (some item) segments file := by
  by_cases types : items = .type
  · subst types
    obtain rfl : kind = .typePrivileges := List.mem_singleton.mp member
    exact ⟨_, _, seeks_typePrivileges schemaFits owner.holdable⟩
  · have itemFits : Literal item := ⟨owner.holdable, owner.literal types⟩
    exact ⟨_, _, seeks_spot (ItemClass.attachment_mem member) schemaFits.sought itemFits.sought⟩

theorem seeks_schema {file : String} (ofSchema : kind.schemaFile? = some file)
    (schemaFits : Sought schema) :
    Seeks kind verb schema none ["schemas", schema]
      (FileKind.scriptName file (kind.verbFor verb)) := by
  have plain : '/' ∉ file.toList := (FileKind.file_ofSchema ofSchema).1
  refine ⟨FileKind.render_schema ofSchema (kind.verbFor verb) schemaFits.free, ?_,
    FileKind.scriptName_free plain _, fun name => FileKind.scriptName_ends⟩
  simp only [List.forall_mem_cons]
  exact ⟨by decide, schemaFits.holdable, nofun⟩

theorem render_database (ofDatabase : kind.isOfDatabase = true) (verb : Verb) :
    ∃ file, Path.Holdable file ∧
      kind.render (some verb) none none = .ok (Path.ofSegments [file]) := by
  cases kind <;> cases ofDatabase <;> cases verb <;> exact ⟨_, by decide, rfl⟩

variable (tidy : planner.snapshot.Tidy) (orderly : planner.snapshot.Orderly)

include tidy orderly

theorem emitFound_schema_answers {file : String} (ofSchema : kind.schemaFile? = some file)
    (schemaFits : Sought schema) :
    planner.Answers (fun _ => True) (planner.emitFound kind verb (some schema) none) :=
  ((seeks_schema ofSchema schemaFits).answers tidy orderly).weaken fun _ _ => trivial

theorem emit_database_answers (ofDatabase : kind.isOfDatabase = true) :
    planner.Answers (fun _ => True) (planner.emit kind verb none none) := by
  obtain ⟨file, fits, rendered⟩ := render_database ofDatabase (kind.verbFor verb)
  have alone : [file] = [] ++ [file] := rfl
  rw [alone] at rendered
  exact emit_answers (emitFound_answers tidy orderly rendered nofun fits.1.free)

theorem planSchemas_answers (fits : ∀ schema ∈ schemas, Sought schema) :
    planner.Answers (fun _ => True) (planner.planSchemas verb schemas) := by
  refine .each fun schema member => ?_
  have privileges : planner.Answers (fun _ => True)
      (planner.emit .schemaPrivileges verb (some schema) none) :=
    emit_answers (emitFound_schema_answers tidy orderly rfl (fits schema member))
  split
  · exact privileges
  · refine .andThen (emitFound_schema_answers tidy orderly rfl (fits schema member))
      fun found _ => ?_
    split
    · exact privileges
    · exact .done trivial

theorem attach_answers (schemaFits : Literal schema) (owner : Owner items item) :
    planner.Answers (fun _ => True) (planner.attach items schema item) := by
  refine .each fun kind member => ?_
  obtain ⟨segments, file, seeks⟩ := seeks_owned schemaFits owner member
  exact emit_answers (seeks.answers tidy orderly)

theorem planForeignKeys_answers (fits : ∀ schema ∈ schemas, Literal schema) :
    planner.Answers (fun _ => True) (planner.planForeignKeys verb schemas) :=
  .each fun schema member => emit_answers
    ((seeks_foreignKeys (fits schema member).sought none).answers tidy orderly)

theorem schemaItem_of_hits (asks : Asks items item) {path : String}
    (hits : Hits planner.snapshot (items.primary.spot .create schema item).1
      (items.primary.spot .create schema item).2 path) :
    ∃ inside name, Path.schemaItem? path = some (inside, name) ∧ Literal inside ∧
      Owner items name ∧ Plan.Chosen schema inside ∧
      (Path.isWildcard item = false → name = item) := by
  obtain ⟨inside, name, rfl, insideFits, holdable, plain, chosen, unmarked, whole⟩ :=
    hits_named tidy orderly asks hits
  exact ⟨inside, name, FileKind.schemaItem_pathOf items.primary_mem insideFits.holdable.1
    holdable.1 plain, insideFits, ⟨holdable, fun folders => unmarked (.inl folders)⟩, chosen,
    whole⟩

theorem itemsOf_answers (schemaFits : Literal schema) {found : List String}
    (hits : ∀ path ∈ found, Hits planner.snapshot
      (items.primary.spot .create schema items.anyItem).1
      (items.primary.spot .create schema items.anyItem).2 path) :
    planner.Answers (fun names => ∀ item ∈ names, Owner items item)
      (planner.itemsOf items schema found) := by
  by_cases types : items = .type
  · subst types
    refine .done fun name member => ?_
    obtain ⟨⟨inside, _⟩, within, rfl⟩ := List.mem_map.mp member
    obtain ⟨path, held, read⟩ := List.mem_filterMap.mp within
    obtain ⟨_, _, same, -, owner, -⟩ := schemaItem_of_hits tidy orderly .anyItem (hits path held)
    rw [same] at read
    cases read
    exact owner
  · obtain ⟨all, listed, fits⟩ := itemsOf_spec tidy orderly types schemaFits found
    rw [listed]
    exact .ofSource fun name member => (fits name member).owner

theorem planSchemaItems_answers (schemaFits : Literal schema) :
    planner.Answers (fun _ => True) (planner.planSchemaItems verb items schema) := by
  have seeks {kind : FileKind} (has : kind ∈ items.kinds) (verb : Verb) :
      Seeks kind verb schema (some items.anyItem) (kind.spot verb schema items.anyItem).1
        (kind.spot verb schema items.anyItem).2 :=
    seeks_spot has schemaFits.sought Asks.anyItem.sought
  unfold planSchemaItems
  split
  · exact emit_answers ((seeks items.privileges_mem verb).answers tidy orderly)
  · refine .andThen ((seeks items.primary_mem verb).answers tidy orderly) fun found hits => ?_
    split
    · rename_i creating
      obtain ⟨rfl, -⟩ := creating
      exact .andThen (itemsOf_answers tidy orderly schemaFits hits) fun names owners =>
        .each fun item member => attach_answers tidy orderly schemaFits (owners item member)
    · exact .done trivial

/-- With all schemas listed, those that the clause leaves are planned. -/
theorem planAllItems_answers {all : List String} (listed : planner.schemas = .ofSource (.ok all))
    (fits : ∀ schema ∈ all, Literal schema) (command : Command) :
    planner.Answers (fun _ => True) (planner.planAllItems command verb items) := by
  have left : ∀ schema ∈ command.filterSchemas all, Literal schema :=
    fun schema member => fits schema (Command.mem_filterSchemas member)
  have each : planner.Answers (fun _ => True)
      (Draft.each (planner.planSchemaItems verb items) (command.filterSchemas all)) :=
    .each fun schema member => planSchemaItems_answers tidy orderly (left schema member)
  have keys : planner.Answers (fun _ => True)
      (planner.planForeignKeys verb (command.filterSchemas all)) :=
    planForeignKeys_answers tidy orderly left
  unfold planAllItems
  simp only [listed, Draft.bind_eq, Draft.ofSource_andThen]
  split
  · refine .andThen keys fun _ _ => .andThen each fun _ _ => ?_
    split
    · exact keys
    · exact .done trivial
  · refine .andThen each fun _ _ => ?_
    split
    · exact keys
    · exact .done trivial

theorem planListedItems_answers (understood : command.Understood) :
    planner.Answers (fun _ => True) (planner.planListedItems command verb items) := by
  refine .each fun name member => ?_
  obtain ⟨schema, item, split, schemaPart, itemPart⟩ := understood.itemNames_isQualified member
  have seeks {kind : FileKind} (has : kind ∈ items.kinds) (verb : Verb) :
      Seeks kind verb schema (some item) (kind.spot verb schema item).1
        (kind.spot verb schema item).2 :=
    seeks_spot has (.of_part schemaPart) (.of_part itemPart)
  simp only [Command.splitName, split, Draft.bind_eq, Draft.done_andThen]
  split
  · exact emit_answers ((seeks items.privileges_mem verb).answers tidy orderly)
  · refine .andThen ((seeks items.primary_mem verb).answers tidy orderly) fun found hits => ?_
    split
    · rename_i creating
      subst creating
      refine .each fun path among => ?_
      obtain ⟨inside, name, read, insideFits, owner, -⟩ :=
        schemaItem_of_hits tidy orderly (.inl itemPart) (hits path among)
      rw [read]
      exact attach_answers tidy orderly insideFits owner
    · exact .done trivial

theorem planOn_answers (understood : command.Understood) {kinds : List FileKind}
    (placed : ∀ kind ∈ kinds, kind.place?.isSome = true) (clause : command.clause = some .on)
    (slots : "item-names" ∈ command.arguments.map (·.slot)) :
    planner.Answers (fun _ => True) (planner.planOn command verb kinds) := by
  unfold planOn
  rw [if_neg (by simp [clause, understood.itemNames_ne_nil slots])]
  refine .each fun name member => ?_
  obtain ⟨schema, item, split, schemaPart, itemPart⟩ := understood.itemNames_isQualified member
  simp only [Command.splitName, split, Draft.bind_eq, Draft.done_andThen]
  refine .each fun kind among => ?_
  obtain ⟨⟨directory, file⟩, place⟩ := Option.isSome_iff_exists.mp (placed kind among)
  exact emit_answers ((seeks_placed place (.of_part schemaPart) (.of_part itemPart)).answers tidy
    orderly)

/-- What is planned for a command that was understood answers for its patterns. -/
theorem planObjects_answers (understood : command.Understood)
    (named : Command.namesObject command.object command.clause
      (command.arguments.map (·.slot)) = true) :
    planner.Answers (fun _ => True) (planner.planObjects command verb) := by
  obtain ⟨all, listed, -, fits, -⟩ := schemas_spec tidy orderly
  have schemaNames : ∀ schema ∈ command.schemaNames, Sought schema := fun schema member =>
    .of_part (.inr (understood.schemaNames_isIdentifier member))
  have onItems {kinds : List FileKind} (placed : ∀ kind ∈ kinds, kind.place?.isSome = true)
      (shape : (command.clause == some .on &&
        (command.arguments.map (·.slot)).contains "item-names") = true) :
      planner.Answers (fun _ => True) (planner.planOn command verb kinds) := by
    obtain ⟨clause, slots⟩ := Bool.and_eq_true_iff.mp shape
    exact planOn_answers tidy orderly understood placed (by simpa using clause)
      (by simpa using slots)
  unfold planObjects
  -- the objects in the order in which they are told apart, `none` first
  split
  · rename_i none
    simp [none, Command.namesObject] at named
  · dsimp only
    split <;> exact emit_database_answers tidy orderly rfl
  · exact emit_database_answers tidy orderly rfl
  · exact emit_database_answers tidy orderly rfl
  · rw [listed]
    exact planForeignKeys_answers tidy orderly fits
  · rw [listed]
    exact planSchemas_answers tidy orderly fun schema member =>
      (fits schema (Command.mem_filterSchemas member)).sought
  · exact planSchemas_answers tidy orderly schemaNames
  · rename_i object
    exact onItems (by decide) (by simpa [object, Command.namesObject] using named)
  · rename_i object
    exact onItems (by decide) (by simpa [object, Command.namesObject] using named)
  · rename_i object
    exact onItems (by decide) (by simpa [object, Command.namesObject] using named)
  · split
    · exact planAllItems_answers tidy orderly listed fits command
    · exact planListedItems_answers tidy orderly understood
    · -- no other object is left that can be named
      unfold Command.namesObject at named
      split at named <;> simp_all

end Objects

/-- The tree has such a schema under a name of one line, and the clause leaves it. -/
def Remains (planner : Planner) (command : Command) (schema : String) : Prop :=
  ⟨schema, true⟩ ∈ planner.snapshot.held ["schemas"] ∧
    Glob.anyName (planner.snapshot.listedAs ["schemas"] schema) = true ∧
    command.keeps (planner.snapshot.listedAs ["schemas"] schema) = true

theorem mem_schemas_iff {all : List String} (listed : planner.schemas = .ofSource (.ok all))
    {name : String} : name ∈ all ↔ ∃ schema, ⟨schema, true⟩ ∈ planner.snapshot.held ["schemas"] ∧
      planner.snapshot.listedAs ["schemas"] schema = name ∧ Glob.anyName name = true := by
  have outcome := congrArg Draft.outcome listed
  obtain ⟨folders, shown, rfl⟩ := Outcome.map_eq_ok.mp (Outcome.mapError_eq_ok.mp outcome)
  obtain ⟨entries, read, names⟩ := Snapshot.folders_eq_ok shown
  obtain ⟨-, -, shuffled⟩ := Snapshot.entries_eq_ok read
  have top : Path.steps "schemas" = ["schemas"] := by decide
  rw [top] at shuffled
  rw [names]
  simp only [List.mem_map, List.mem_filter, shuffled.mem_iff, Bool.and_eq_true]
  constructor
  · rintro ⟨_, ⟨⟨⟨schema, isFolder⟩, held, rfl⟩, folder, plain⟩, rfl⟩
    obtain rfl : isFolder = true := folder
    exact ⟨schema, held, rfl, plain⟩
  · rintro ⟨schema, held, rfl, plain⟩
    exact ⟨_, ⟨⟨_, held, rfl⟩, rfl, plain⟩, rfl⟩

theorem filterSchemas_eq_nil {all : List String} {command : Command}
    (listed : planner.schemas = .ofSource (.ok all)) :
    command.filterSchemas all = [] ↔ ∀ schema, ¬ planner.Remains command schema := by
  rw [Command.filterSchemas_eq, List.filter_eq_nil_iff]
  constructor
  · rintro none schema ⟨held, plain, kept⟩
    exact none _ ((mem_schemas_iff listed).mpr ⟨schema, held, rfl, plain⟩) kept
  · intro none name member kept
    obtain ⟨schema, held, rfl, plain⟩ := (mem_schemas_iff listed).mp member
    exact none schema ⟨held, plain, kept⟩

theorem Answers.isStep_iff {draft : Draft Unit} {values : Unit → Prop}
    (answers : planner.Answers values draft) : draft.events.any (·.isStep) = true ↔
      ∃ pattern ∈ draft.patterns, planner.snapshot.Holds pattern := by
  have tried (pattern : String) : pattern ∈ draft.patterns ↔ .tried pattern ∈ draft.events := by
    unfold Draft.patterns
    rw [List.mem_filterMap]
    constructor
    · rintro ⟨event, member, same⟩
      cases event <;> cases same
      exact member
    · exact fun member => ⟨_, member, rfl⟩
  simp only [tried, ← answers.agrees, List.any_eq_true]
  constructor
  · rintro ⟨event, member, isStep⟩
    rcases answers.plain event member with ⟨pattern, rfl⟩ | ⟨path, rfl⟩
    · cases isStep
    · exact ⟨path, member⟩
  · rintro ⟨path, member⟩
    exact ⟨_, member, rfl⟩

end Planner

namespace Plan

variable {State : Type}

theorem settle_tried {events : List Draft.Event} (closed : Draft.Closed events)
    (database : Option (Database State)) (outcome : Except PlanError Unit) (state : State) :
    (settle database outcome events state).1.tried = events.filterMap Draft.Event.pattern? := by
  induction events with
  | nil => rfl
  | cons event rest ih =>
      have later := ih fun kind command member =>
        closed kind command (List.mem_cons_of_mem _ member)
      cases event with
      | tried pattern => exact congrArg (pattern :: ·) later
      | step step => exact later
      | listing kind command => exact absurd List.mem_cons_self (closed kind command)

end Plan

namespace Planner

variable {planner : Planner} {verb : Verb} {command : Command}

theorem plan_tried (root : command.root = verb.name) {State : Type}
    (database : Option (Database State)) (state : State) :
    ((planner.plan command).settle database state).1.tried =
      (planner.planObjects command verb).patterns := by
  rw [Draft.settle, Plan.settle_tried (plan_closed root), plan, planWith_verb _ root,
    withSteps_events]
  rfl

end Planner

end Rollout
