import Rollout.Proofs.Layout
import Rollout.Proofs.Plan.Matching

/-!
Where the files of items stand: in a directory of the item, below the one of its class in the
schema. Filled in with a schema and an item, the template of a kind is that path.
-/

namespace Rollout

namespace Text

variable {word value : List Char}

theorem replaceAll_of_absent {text : List Char} (absent : occurs word text = false) :
    replaceAll word value text = text := by
  unfold replaceAll
  induction text with
  | nil => rfl
  | cons c rest ih =>
      simp only [occurs, Bool.or_eq_false_iff] at absent
      rw [replaceAfter, if_neg (by simp [absent.1]), ih absent.2]

theorem replaceAfter_skip (start tail : List Char) :
    replaceAfter word value start.length (start ++ tail) = replaceAll word value tail := by
  induction start with
  | nil => rfl
  | cons c rest ih => exact ih

/-- A word at the start is replaced, and the search goes on behind it. -/
theorem replaceAll_append {c : Char} (tail : List Char) :
    replaceAll (c :: word) value (c :: word ++ tail) =
      value ++ replaceAll (c :: word) value tail := by
  have begins : (c :: word).isPrefixOf (c :: (word ++ tail)) = true :=
    List.isPrefixOf_iff_prefix.mpr (List.prefix_append (c :: word) tail)
  have skipped : replaceAfter (c :: word) value word.length (word ++ tail) =
      replaceAll (c :: word) value tail := replaceAfter_skip word tail
  rw [← skipped, List.cons_append]
  unfold replaceAll
  rw [replaceAfter, if_pos begins]
  rfl

end Text

namespace FileKind

/-- For kinds of files that an item has in its directory, the directory of the class and the name
before the verb. -/
def place? : FileKind → Option (String × String)
  | table => some ("tables", "table")
  | constraints => some ("tables", "constraints")
  | tableIndexes => some ("tables", "indexes")
  | triggers => some ("tables", "triggers")
  | tablePrivileges => some ("tables", "privileges")
  | view => some ("views", "view")
  | viewIndexes => some ("views", "indexes")
  | viewPrivileges => some ("views", "privileges")
  | function => some ("functions", "function")
  | functionPrivileges => some ("functions", "privileges")
  | procedure => some ("procedures", "procedure")
  | procedurePrivileges => some ("procedures", "privileges")
  | _ => none

/-- The verb in the names of files of a kind: for privileges, one on privileges. -/
def verbFor (kind : FileKind) (verb : Verb) : Verb :=
  if kind.isPrivileges then verb.privileges else verb

/-- The name of a file for a verb. -/
def scriptName (file : String) (verb : Verb) : String := file ++ "." ++ verb.name ++ ".sql"

/-- The name of a file of a kind in the directory of an item. -/
def script? (kind : FileKind) (verb : Verb) : Option String :=
  kind.place?.map fun (_, file) => scriptName file (kind.verbFor verb)

variable {kind : FileKind} {verb : Verb} {schema item directory file : String}

theorem template_placed (placed : kind.place? = some (directory, file)) :
    kind.template.toList = "schemas/".toList ++ (Placeholder.schema.token ++
      (("/" ++ directory ++ "/").toList ++ (Placeholder.item.token ++
        (("/" ++ file ++ ".").toList ++ (Placeholder.verb.token ++ ".sql".toList))))) := by
  cases kind <;> cases placed <;> decide +kernel

/-- The places of a template are filled one after the other. -/
theorem fill_place {template value : String} {place : Placeholder} {start tail : List Char}
    (free : '\x7b' ∉ start) (absent : Text.occurs place.token tail = false) :
    fill template place (some value) (start ++ (place.token ++ tail)) =
      .ok (start ++ (value.toList ++ tail)) := by
  have here : Text.occurs place.token (place.token ++ tail) = true := by
    cases place <;> simp [Placeholder.token, Placeholder.name, Text.occurs]
  have replaced : Text.replaceAll place.token value.toList (place.token ++ tail) =
      value.toList ++ tail := by
    unfold Placeholder.token at absent ⊢
    rw [Text.replaceAll_append, Text.replaceAll_of_absent absent]
  rw [fill_append_of_free template free]
  simp only [fill, here, if_true, replaced]
  rfl

theorem occurs_token_append {place : Placeholder} {start : List Char} (text : List Char)
    (free : '\x7b' ∉ start) :
    Text.occurs place.token (start ++ text) = Text.occurs place.token text :=
  Text.occurs_append_of_free text free

theorem occurs_token_free {place : Placeholder} {text : List Char} (free : '\x7b' ∉ text) :
    Text.occurs place.token text = false := by
  have alone : Text.occurs place.token (text ++ []) = Text.occurs place.token [] :=
    occurs_token_append [] free
  simpa [Text.occurs, Placeholder.token] using alone

theorem occurs_token_token {place other : Placeholder} (apart : place ≠ other)
    (text : List Char) :
    Text.occurs place.token (other.token ++ text) = Text.occurs place.token text := by
  cases place <;> cases other <;> first
    | contradiction
    | simp [Placeholder.token, Placeholder.name, Text.occurs, List.isPrefixOf]

/-- A template with a place for each value, between texts without braces. -/
theorem render_of_places {start middle last tail : List Char}
    (shape : kind.template.toList = start ++ (Placeholder.schema.token ++
      (middle ++ (Placeholder.item.token ++ (last ++ (Placeholder.verb.token ++ tail))))))
    (free : '\x7b' ∉ start ∧ '\x7b' ∉ middle ∧ '\x7b' ∉ last ∧ '\x7b' ∉ tail)
    (schemaFree : '\x7b' ∉ schema.toList) (itemFree : '\x7b' ∉ item.toList) :
    kind.render (some verb) (some schema) (some item) =
      .ok (String.ofList (start ++ (schema.toList ++ (middle ++ (item.toList ++
        (last ++ (verb.name.toList ++ tail))))))) := by
  obtain ⟨before, between, behind, after⟩ := free
  have first : fill kind.template .schema (some schema) kind.template.toList =
      .ok (start ++ (schema.toList ++ (middle ++ (Placeholder.item.token ++
        (last ++ (Placeholder.verb.token ++ tail)))))) := by
    rw [shape]
    refine fill_place before ?_
    rw [occurs_token_append _ between, occurs_token_token (by decide), occurs_token_append _ behind,
      occurs_token_token (by decide), occurs_token_free after]
  have second : fill kind.template .item (some item) (start ++ (schema.toList ++ (middle ++
        (Placeholder.item.token ++ (last ++ (Placeholder.verb.token ++ tail)))))) =
      .ok (start ++ (schema.toList ++ (middle ++ (item.toList ++
        (last ++ (Placeholder.verb.token ++ tail)))))) := by
    have absent : Text.occurs Placeholder.item.token (last ++ (Placeholder.verb.token ++ tail)) =
        false := by
      rw [occurs_token_append _ behind, occurs_token_token (by decide), occurs_token_free after]
    have unbraced : '\x7b' ∉ start ++ schema.toList ++ middle := by
      simp [before, schemaFree, between]
    simpa only [List.append_assoc] using fill_place unbraced absent
  have third : fill kind.template .verb (some verb.name) (start ++ (schema.toList ++ (middle ++
        (item.toList ++ (last ++ (Placeholder.verb.token ++ tail)))))) =
      .ok (start ++ (schema.toList ++ (middle ++ (item.toList ++
        (last ++ (verb.name.toList ++ tail)))))) := by
    have unbraced : '\x7b' ∉ start ++ schema.toList ++ middle ++ item.toList ++ last := by
      simp [before, schemaFree, between, itemFree, behind]
    have absent : Text.occurs Placeholder.verb.token tail = false := occurs_token_free after
    simpa only [List.append_assoc] using fill_place unbraced absent
  simp only [render, first, second, Option.map_some, third, Except.map]

theorem render_placed (placed : kind.place? = some (directory, file))
    (schemaFree : '\x7b' ∉ schema.toList) (itemFree : '\x7b' ∉ item.toList) :
    kind.render (some verb) (some schema) (some item) =
      .ok (Path.ofSegments ["schemas", schema, directory, item, scriptName file verb]) := by
  have free : '\x7b' ∉ ("/" ++ directory ++ "/").toList ∧ '\x7b' ∉ ("/" ++ file ++ ".").toList := by
    cases kind <;> cases placed <;> decide
  rw [render_of_places (template_placed placed) ⟨by decide, free.1, free.2, by decide⟩ schemaFree
    itemFree]
  refine congrArg Except.ok (String.ext ?_)
  simp [Path.ofSegments, scriptName]

/-- Types are files, not folders. -/
theorem render_type (types : kind = .type ∨ kind = .typePrivileges)
    (schemaFree : '\x7b' ∉ schema.toList) (itemFree : '\x7b' ∉ item.toList) :
    kind.render (some verb) (some schema) (some item) =
      .ok (Path.ofSegments ["schemas", schema, "types", scriptName item verb]) := by
  have shape : kind.template.toList = "schemas/".toList ++ (Placeholder.schema.token ++
      ("/types/".toList ++ (Placeholder.item.token ++
        (".".toList ++ (Placeholder.verb.token ++ ".sql".toList))))) := by
    rcases types with rfl | rfl <;> rfl
  rw [render_of_places shape ⟨by decide, by decide, by decide, by decide⟩ schemaFree itemFree]
  refine congrArg Except.ok (String.ext ?_)
  simp [Path.ofSegments, scriptName]

/-- A template with places for a schema and a verb only. -/
theorem render_of_schema {start last tail : List Char} {item : Option String}
    (shape : kind.template.toList = start ++ (Placeholder.schema.token ++
      (last ++ (Placeholder.verb.token ++ tail))))
    (free : '\x7b' ∉ start ∧ '\x7b' ∉ last ∧ '\x7b' ∉ tail)
    (schemaFree : '\x7b' ∉ schema.toList) :
    kind.render (some verb) (some schema) item =
      .ok (String.ofList (start ++ (schema.toList ++ (last ++ (verb.name.toList ++ tail))))) := by
  obtain ⟨before, behind, after⟩ := free
  have first : fill kind.template .schema (some schema) kind.template.toList =
      .ok (start ++ (schema.toList ++ (last ++ (Placeholder.verb.token ++ tail)))) := by
    rw [shape]
    refine fill_place before ?_
    rw [occurs_token_append _ behind, occurs_token_token (by decide), occurs_token_free after]
  have second : fill kind.template .item item
        (start ++ (schema.toList ++ (last ++ (Placeholder.verb.token ++ tail)))) =
      .ok (start ++ (schema.toList ++ (last ++ (Placeholder.verb.token ++ tail)))) := by
    refine fill_absent _ _ ?_
    rw [occurs_token_append _ before, occurs_token_append _ schemaFree,
      occurs_token_append _ behind, occurs_token_token (by decide), occurs_token_free after]
  have third : fill kind.template .verb (some verb.name)
        (start ++ (schema.toList ++ (last ++ (Placeholder.verb.token ++ tail)))) =
      .ok (start ++ (schema.toList ++ (last ++ (verb.name.toList ++ tail)))) := by
    have unbraced : '\x7b' ∉ start ++ schema.toList ++ last := by
      simp [before, schemaFree, behind]
    have absent : Text.occurs Placeholder.verb.token tail = false := occurs_token_free after
    simpa only [List.append_assoc] using fill_place unbraced absent
  simp only [render, first, second, Option.map_some, third, Except.map]

theorem render_foreignKeys (item : Option String) (schemaFree : '\x7b' ∉ schema.toList) :
    foreignKeys.render (some verb) (some schema) item =
      .ok (Path.ofSegments ["schemas", schema, "tables", "?", scriptName "foreign-keys" verb]) := by
  have shape : foreignKeys.template.toList = "schemas/".toList ++ (Placeholder.schema.token ++
      ("/tables/?/foreign-keys.".toList ++ (Placeholder.verb.token ++ ".sql".toList))) := rfl
  rw [render_of_schema shape (by decide) schemaFree]
  refine congrArg Except.ok (String.ext ?_)
  simp [Path.ofSegments, scriptName]

theorem scriptName_toList (file : String) (verb : Verb) :
    (scriptName file verb).toList =
      file.toList ++ ('.' :: (verb.name.toList ++ ".sql".toList)) := by
  simp [scriptName]

theorem scriptName_inj {other : String} (same : scriptName file verb = scriptName other verb) :
    file = other := by
  have letters := congrArg String.toList same
  rw [scriptName_toList, scriptName_toList] at letters
  exact String.toList_inj.mp (List.append_cancel_right letters)

theorem scriptName_verb {other : String} {one : Verb}
    (same : scriptName file verb = scriptName other one) : verb = one := by
  have letters := congrArg (fun name : String => name.toList.reverse) same
  simp only [scriptName_toList] at letters
  cases verb <;> cases one <;> first | rfl | simp [Verb.name] at letters

theorem scriptName_free (free : '/' ∉ file.toList) (verb : Verb) :
    '/' ∉ (scriptName file verb).toList := by
  have tail : '/' ∉ '.' :: (verb.name.toList ++ ".sql".toList) := by
    cases verb <;> decide
  rw [scriptName_toList, List.mem_append, not_or]
  exact ⟨free, tail⟩

theorem scriptName_isName (free : '/' ∉ file.toList) (verb : Verb) :
    Path.IsName (scriptName file verb) := by
  have long : 3 < (scriptName file verb).toList.length := by
    rw [scriptName_toList]
    simp
    omega
  have other : ∀ name : String, name.toList.length ≤ 3 → scriptName file verb ≠ name := by
    rintro _ short rfl
    omega
  exact ⟨other "" (by decide), other "." (by decide), other ".." (by decide),
    scriptName_free free verb⟩

theorem scriptName_literal (literal : Path.isWildcard file = false) (verb : Verb) :
    Path.isWildcard (scriptName file verb) = false := by
  have tail : Path.isWildcard (String.ofList ('.' :: (verb.name.toList ++ ".sql".toList))) =
      false := by
    cases verb <;> decide
  unfold Path.isWildcard at literal tail ⊢
  rw [scriptName_toList, List.any_append, literal]
  simpa using tail

/-- Whatever stands before the verb, what is accepted ends with the verb. -/
theorem accepts_script {name : String}
    (accepted : (Glob.ofSegment (scriptName file verb)).accepts name = true) :
    ∃ stem, name = scriptName stem verb := by
  have tail : '?' ∉ '.' :: (verb.name.toList ++ ".sql".toList) ∧
      '*' ∉ '.' :: (verb.name.toList ++ ".sql".toList) ∧
      '\x7b' ∉ '.' :: (verb.name.toList ++ ".sql".toList) ∧
      '\x7d' ∉ '.' :: (verb.name.toList ++ ".sql".toList) := by
    cases verb <;> decide
  obtain ⟨question, asterisk, opened, closed⟩ := tail
  obtain ⟨start, whole⟩ := Glob.ends_of_accepts question asterisk opened closed
    (scriptName_toList file verb) accepted
  refine ⟨String.ofList start, String.ext ?_⟩
  simp [whole, scriptName_toList]

/-- A script has no name that ends like an escaped form. -/
theorem scriptName_ends {name : String}
    (accepted : (Glob.ofSegment (scriptName file verb)).accepts name = true) :
    name.toList.getLast? ≠ some '"' := by
  obtain ⟨stem, rfl⟩ := accepts_script accepted
  have ends : (scriptName stem verb).toList.getLast? = some 'l' :=
    List.getLast?_eq_some_iff.mpr
      ⟨stem.toList ++ '.' :: (verb.name.toList ++ ".sq".toList), by simp [scriptName_toList]⟩
  rw [ends]
  decide

theorem accepts_scriptName (literal : Path.isWildcard file = false) {name : String} :
    (Glob.ofSegment (scriptName file verb)).accepts name = true ↔ name = scriptName file verb :=
  Glob.accepts_literal (scriptName_literal literal verb)

theorem file_placed (placed : kind.place? = some (directory, file)) :
    '/' ∉ file.toList ∧ Path.isWildcard file = false := by
  cases kind <;> cases placed <;> decide

theorem directory_placed (placed : kind.place? = some (directory, file)) :
    Path.Holdable directory ∧ Path.isWildcard directory = false := by
  cases kind <;> cases placed <;> decide

end FileKind

namespace ItemClass

/-- The kinds of files that an item has. -/
def kinds (items : ItemClass) : List FileKind :=
  items.primary :: items.privileges :: items.attachments

theorem primary_mem (items : ItemClass) : items.primary ∈ items.kinds := List.mem_cons_self

theorem privileges_mem (items : ItemClass) : items.privileges ∈ items.kinds :=
  List.mem_cons_of_mem _ List.mem_cons_self

theorem attachment_mem {items : ItemClass} {kind : FileKind} (member : kind ∈ items.attachments) :
    kind ∈ items.kinds :=
  List.mem_cons_of_mem _ (List.mem_cons_of_mem _ member)

/-- Items that are folders are all found by one question mark. -/
theorem anyItem_folders {items : ItemClass} (folders : items ≠ .type) :
    items.anyItem = Name.wildcard := by
  cases items <;> first | contradiction | rfl

/-- What belongs to an item is in its directory, below that of its class, if items are folders. -/
theorem placed {items : ItemClass} (folders : items ≠ .type) :
    ∀ kind ∈ items.kinds, ∃ file, kind.place? = some (items.directory, file) := by
  have all : ∀ kind ∈ items.kinds, kind.place?.map Prod.fst = some items.directory := by
    cases items <;> first | contradiction | decide
  intro kind member
  obtain ⟨⟨_, file⟩, place, rfl⟩ := Option.map_eq_some_iff.mp (all kind member)
  exact ⟨file, place⟩

/-- The kind of file that a command runs for an item itself. -/
def planned (items : ItemClass) (verb : Verb) : FileKind :=
  if verb.isPrivileges then items.privileges else items.primary

theorem planned_mem (items : ItemClass) (verb : Verb) : items.planned verb ∈ items.kinds := by
  unfold planned kinds
  split <;> simp

theorem verbFor_planned (items : ItemClass) (verb : Verb) :
    (items.planned verb).verbFor verb = verb := by
  cases items <;> cases verb <;> rfl

/-- What belongs to an item is not in the file that creates it, and foreign keys are in none of its
files. -/
theorem script_apart {items : ItemClass} (folders : items ≠ .type) :
    (∀ kind ∈ items.attachments, kind.script? .create ≠ items.primary.script? .create) ∧
      ∀ verb, ∀ kind ∈ items.kinds,
        kind.script? verb ≠ some (FileKind.scriptName "foreign-keys" verb) := by
  refine ⟨?_, fun verb => ?_⟩
  · cases items <;> first | contradiction | decide
  · cases items <;> cases verb <;> first | contradiction | decide

end ItemClass

end Rollout
