import Rollout.Layout
import Rollout.Proofs.Outcome

/-!
Patterns of the kinds of files: which values are enough to fill a template, and how what comes out
ends.
-/

namespace Rollout

namespace Text

variable {word start tail value : List Char}

theorem occurs_append_of_free {first : Char} (text : List Char) (free : first ∉ start) :
    occurs (first :: word) (start ++ text) = occurs (first :: word) text := by
  induction start with
  | nil => rfl
  | cons c rest ih =>
      obtain ⟨other, later⟩ : first ≠ c ∧ first ∉ rest := by simpa using free
      simp [occurs, other, ih later]

theorem replaceAll_append_of_free {first : Char} (text : List Char) (free : first ∉ start) :
    replaceAll (first :: word) value (start ++ text) =
      start ++ replaceAll (first :: word) value text := by
  induction start with
  | nil => rfl
  | cons c rest ih =>
      obtain ⟨other, later⟩ : first ≠ c ∧ first ∉ rest := by simpa using free
      simpa [replaceAll, replaceAfter, other] using ih later

/-- A word does not end where its last character is missing. -/
theorem not_prefix_of_free {last : Char} {text : List Char} (free : last ∉ tail)
    (begins : word ++ [last] <+: text ++ tail) : word ++ [last] <+: text := by
  rcases List.prefix_or_prefix_of_prefix begins (List.prefix_append text tail) with inner | outer
  · exact inner
  · obtain ⟨more, whole⟩ := outer
    rw [← whole] at begins ⊢
    have within : more <+: tail := (List.prefix_append_right_inj text).mp begins
    cases more with
    | nil => simp
    | cons c rest =>
        have ends : (c :: rest).getLast? = some last := by
          have ended := congrArg List.getLast? whole
          simpa [List.getLast?_append] using ended
        exact absurd (within.subset (List.mem_of_getLast? ends)) free

theorem replaceAfter_of_free {last : Char} {skip : Nat} (start : skip = 0) (free : last ∉ tail) :
    replaceAfter (word ++ [last]) value skip tail = tail := by
  subst start
  induction tail with
  | nil => rfl
  | cons c rest ih =>
      have begun : (word ++ [last]).isPrefixOf (c :: rest) = false := by
        rw [Bool.eq_false_iff, ne_eq, List.isPrefixOf_iff_prefix]
        exact fun begins => free (begins.subset (by simp))
      simp only [replaceAfter, begun, Bool.false_eq_true, if_false]
      rw [ih fun member => free (List.mem_cons_of_mem _ member)]

theorem replaceAfter_append {last : Char} (free : last ∉ tail) (text : List Char) (skip : Nat)
    (within : skip ≤ text.length) :
    replaceAfter (word ++ [last]) value skip (text ++ tail) =
      replaceAfter (word ++ [last]) value skip text ++ tail := by
  induction text generalizing skip with
  | nil => exact replaceAfter_of_free (Nat.le_zero.mp within) free
  | cons c rest ih =>
      cases skip with
      | succ skip => exact ih skip (Nat.le_of_succ_le_succ within)
      | zero =>
          by_cases begins : word ++ [last] <+: c :: rest
          · -- the word ends before the tail, and the search goes on behind it
            have longer : word ++ [last] <+: c :: (rest ++ tail) :=
              begins.trans (List.prefix_append _ _)
            have short : (word ++ [last]).length - 1 ≤ rest.length := by
              have bound := begins.length_le
              simp only [List.length_append, List.length_cons] at bound ⊢
              omega
            simp only [List.cons_append, replaceAfter] at ih ⊢
            rw [if_pos (List.isPrefixOf_iff_prefix.mpr longer),
              if_pos (List.isPrefixOf_iff_prefix.mpr begins), ih _ short, List.append_assoc]
          · -- a word that needed the tail would end in it
            have shorter : ¬ word ++ [last] <+: c :: (rest ++ tail) :=
              fun longer => begins (not_prefix_of_free free longer)
            simp only [List.cons_append, replaceAfter] at ih ⊢
            rw [if_neg (mt List.isPrefixOf_iff_prefix.mp shorter),
              if_neg (mt List.isPrefixOf_iff_prefix.mp begins), ih 0 (Nat.zero_le _)]
            rfl

end Text

namespace FileKind

/-- Kinds of files that hold scripts for a verb. -/
def isScripts : FileKind → Bool
  | databaseSeeds | schemaSeeds | tableSeeds => false
  | _ => true

variable {kind : FileKind} {verb : Option Verb} {schema item : Option String}

theorem template_isScripts (scripts : kind.isScripts = true) :
    ∃ start, kind.template.toList = start ++ ".sql".toList := by
  have ends : ".sql".toList <:+ kind.template.toList := by
    cases kind <;> first | contradiction | decide +kernel
  obtain ⟨start, whole⟩ := ends
  exact ⟨start, whole.symm⟩

/-- What stands after the last place of a template stays at the end. -/
theorem fill_ends {template : String} {place : Placeholder} {value : Option String}
    {text tail out : List Char} (free : '\x7d' ∉ tail)
    (filled : fill template place value (text ++ tail) = .ok out) :
    ∃ start, out = start ++ tail := by
  unfold fill at filled
  split at filled
  · split at filled <;> cases filled
    have token : place.token = ('\x7b' :: place.name.toList) ++ ['\x7d'] := rfl
    rw [Text.replaceAll, token, Text.replaceAfter_append free text 0 (Nat.zero_le _)]
    exact ⟨_, rfl⟩
  · cases filled
    exact ⟨text, rfl⟩

theorem render_ends {pattern : String} (scripts : kind.isScripts = true)
    (rendered : kind.render verb schema item = .ok pattern) :
    ∃ start, pattern.toList = start ++ ".sql".toList := by
  have free : '\x7d' ∉ ".sql".toList := by decide
  obtain ⟨start, whole⟩ := template_isScripts scripts
  simp only [render, whole] at rendered
  split at rendered
  · cases rendered
  · rename_i first filled
    obtain ⟨start, rfl⟩ := fill_ends free filled
    split at rendered
    · cases rendered
    · rename_i second filled
      obtain ⟨start, rfl⟩ := fill_ends free filled
      obtain ⟨out, last, rfl⟩ := Outcome.map_eq_ok.mp rendered
      obtain ⟨start, rfl⟩ := fill_ends free last
      exact ⟨start, by simp⟩

theorem fill_some (template value : String) (place : Placeholder) (text : List Char) :
    ∃ out, fill template place (some value) text = .ok out := by
  unfold fill
  split <;> exact ⟨_, rfl⟩

theorem fill_absent {place : Placeholder} {text : List Char} (template : String)
    (value : Option String) (absent : Text.occurs place.token text = false) :
    fill template place value text = .ok text := by
  simp [fill, absent]

theorem fill_append_of_free {start : List Char} {place : Placeholder} {value : Option String}
    {text : List Char} (template : String) (free : '\x7b' ∉ start) :
    fill template place value (start ++ text) =
      (fill template place value text).map (start ++ ·) := by
  simp only [fill, Placeholder.token, Text.occurs_append_of_free text free,
    Text.replaceAll_append_of_free text free]
  by_cases held : Text.occurs ('\x7b' :: (place.name.toList ++ ['\x7d'])) text = true
  · simp only [held, if_true]
    cases value <;> rfl
  · simp [held, Except.map]

theorem fill_starts {template : String} {place : Placeholder} {value : Option String}
    {start text out : List Char} (free : '\x7b' ∉ start) (begins : start <+: text)
    (filled : fill template place value text = .ok out) : start <+: out := by
  obtain ⟨rest, rfl⟩ := begins
  rw [fill_append_of_free template free] at filled
  obtain ⟨tail, -, rfl⟩ := Outcome.map_eq_ok.mp filled
  exact List.prefix_append start tail

theorem render_some (kind : FileKind) (verb : Verb) (schema item : String) :
    ∃ pattern, kind.render (some verb) (some schema) (some item) = .ok pattern := by
  obtain ⟨first, one⟩ := fill_some kind.template schema .schema kind.template.toList
  obtain ⟨second, two⟩ := fill_some kind.template item .item first
  obtain ⟨third, three⟩ := fill_some kind.template verb.name .verb second
  exact ⟨String.ofList third, by simp [render, one, two, three, Except.map]⟩

/-- Kinds of files that a schema has as a whole. -/
def isOfSchema : FileKind → Bool
  | .schema | schemaPrivileges | foreignKeys => true
  | _ => false

/-- A schema is enough for these, if it does not bring a place of its own. -/
theorem render_ofSchema {schema : String} (ofSchema : kind.isOfSchema = true) (verb : Verb)
    (free : '\x7b' ∉ schema.toList) :
    ∃ pattern, kind.render (some verb) (some schema) none = .ok pattern := by
  -- what stands behind the schema has no place for an item, and the schema brings none
  have first : ∃ tail, fill kind.template .schema (some schema) kind.template.toList =
      .ok ("schemas/".toList ++ (schema.toList ++ tail)) ∧
      Text.occurs Placeholder.item.token tail = false := by
    refine ⟨kind.template.toList.drop "schemas/\x7bschema\x7d".length, ?_⟩
    cases kind <;> first | contradiction | exact ⟨rfl, by decide⟩
  obtain ⟨tail, one, absent⟩ := first
  have two : fill kind.template .item none ("schemas/".toList ++ (schema.toList ++ tail)) =
      .ok ("schemas/".toList ++ (schema.toList ++ tail)) := by
    rw [fill_append_of_free _ (by decide), fill_append_of_free _ free, fill_absent _ _ absent]
    rfl
  obtain ⟨third, three⟩ := fill_some kind.template verb.name .verb
    ("schemas/".toList ++ (schema.toList ++ tail))
  exact ⟨String.ofList third, by simp only [render, one, two, Option.map_some, three, Except.map]⟩

/-- Kinds of files that a database has as a whole. -/
def isOfDatabase : FileKind → Bool
  | database | databasePrivileges | roles | extensions => true
  | _ => false

theorem render_ofDatabase (ofDatabase : kind.isOfDatabase = true) (verb : Verb) :
    ∃ pattern, kind.render (some verb) none none = .ok pattern := by
  have absent : ∀ place ∈ [Placeholder.schema, .item],
      Text.occurs place.token kind.template.toList = false := by
    cases kind <;> first | contradiction | decide +kernel
  obtain ⟨last, filled⟩ := fill_some kind.template verb.name .verb kind.template.toList
  refine ⟨String.ofList last, ?_⟩
  simp only [render, fill_absent _ _ (absent .schema (by decide)), Option.map_some, filled,
    fill_absent _ _ (absent .item (by decide)), Except.map]

/-- The two parts of the templates of seeds, after the schema and after the item. -/
def schemaSeedsTail : String := "/seeds/*.\x7bsql,csv,sh,ddsl\x7d"

def tableSeedsTail : String := "/seeds/*.\x7bcsv,sql\x7d"

theorem render_schemaSeeds {schema : String} (free : '\x7b' ∉ schema.toList) :
    schemaSeeds.render none (some schema) none =
      .ok ("schemas/" ++ schema ++ schemaSeedsTail) := by
  have first : fill schemaSeeds.template .schema (some schema) schemaSeeds.template.toList =
      .ok (("schemas/" ++ schema).toList ++ schemaSeedsTail.toList) := by
    rw [String.toList_append, List.append_assoc]
    rfl
  have absent : ∀ place ∈ [Placeholder.item, .verb], Text.occurs place.token
      (("schemas/" ++ schema).toList ++ schemaSeedsTail.toList) = false := by
    intro place member
    rw [Placeholder.token, Text.occurs_append_of_free _ (by simp [free])]
    revert place
    decide
  simp only [render, first, fill_absent _ _ (absent .item (by decide)), Option.map_none,
    fill_absent _ _ (absent .verb (by decide)), Except.map]
  rw [← String.toList_append, String.ofList_toList]

theorem render_tableSeeds {schema item : String} (schemaFree : '\x7b' ∉ schema.toList)
    (itemFree : '\x7b' ∉ item.toList) :
    tableSeeds.render none (some schema) (some item) =
      .ok ("schemas/" ++ schema ++ "/tables/" ++ item ++ tableSeedsTail) := by
  have first : fill tableSeeds.template .schema (some schema) tableSeeds.template.toList =
      .ok (("schemas/" ++ schema ++ "/tables/").toList ++
        (Placeholder.item.token ++ tableSeedsTail.toList)) := by
    simp only [String.toList_append, List.append_assoc]
    rfl
  have second : fill tableSeeds.template .item (some item)
        (("schemas/" ++ schema ++ "/tables/").toList ++
          (Placeholder.item.token ++ tableSeedsTail.toList)) =
      .ok (("schemas/" ++ schema ++ "/tables/" ++ item).toList ++ tableSeedsTail.toList) := by
    have free : '\x7b' ∉ ("schemas/" ++ schema ++ "/tables/").toList := by simp [schemaFree]
    have rest : fill tableSeeds.template .item (some item)
        (Placeholder.item.token ++ tableSeedsTail.toList) =
        .ok (item.toList ++ tableSeedsTail.toList) := rfl
    rw [fill_append_of_free _ free, rest]
    simp only [Except.map, String.toList_append, List.append_assoc]
  have third : Text.occurs Placeholder.verb.token
      (("schemas/" ++ schema ++ "/tables/" ++ item).toList ++ tableSeedsTail.toList) = false := by
    rw [Placeholder.token, Text.occurs_append_of_free _ (by simp [schemaFree, itemFree])]
    decide
  simp only [render, first, second, Option.map_none, fill_absent _ _ third, Except.map]
  rw [← String.toList_append, String.ofList_toList]

end FileKind

end Rollout
