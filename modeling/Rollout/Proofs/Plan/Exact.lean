import Mathlib.Data.String.Basic
import Rollout.Proofs.Plan.Placed
import Rollout.Proofs.Plan.Seeds
import Rollout.Proofs.Text.Ordered

/-!
What a pattern of the layout is expanded to: the files of the tree, in the order of the bytes of
their paths, that have a name for each segment of the pattern. At a ref, those are missing whose
paths are not listed as they are.
-/

namespace Rollout

namespace Text

variable {word value tail : List Char} {c : Char}

/-- A word does not reach beyond a character that it does not have. -/
theorem prefix_of_free {text : List Char} (free : c ∉ word)
    (begins : word <+: text ++ c :: tail) : word <+: text := by
  rcases List.prefix_or_prefix_of_prefix begins (List.prefix_append text (c :: tail)) with
    inner | ⟨more, rfl⟩
  · exact inner
  · have behind : more <+: c :: tail := (List.prefix_append_right_inj text).mp begins
    cases more with
    | nil => simp
    | cons d rest =>
        obtain ⟨rfl, -⟩ := List.cons_prefix_cons.mp behind
        exact absurd (List.mem_append_right text List.mem_cons_self) free

theorem occurs_of_cons (absent : occurs word (c :: tail) = false) : occurs word tail = false := by
  simp only [occurs, Bool.or_eq_false_iff] at absent
  exact absent.2

theorem occurs_append {text : List Char} (held : occurs word text = true) (start : List Char) :
    occurs word (start ++ text) = true := by
  induction start with
  | nil => exact held
  | cons c rest ih => simp [occurs, ih]

/-- What stands before such a character and behind it is replaced by itself. -/
theorem replaceAfter_before (free : c ∉ word) (filled : word ≠ []) (text : List Char) (skip : Nat)
    (within : skip ≤ text.length) :
    replaceAfter word value skip (text ++ c :: tail) =
      replaceAfter word value skip text ++ c :: replaceAll word value tail := by
  induction text generalizing skip with
  | nil =>
      obtain rfl := Nat.le_zero.mp within
      have other : word.isPrefixOf (c :: tail) = false := by
        cases word with
        | nil => exact absurd rfl filled
        | cons d rest =>
            have apart : d ≠ c := fun same => free (same ▸ List.mem_cons_self)
            simp [List.isPrefixOf, apart]
      simp only [List.nil_append, replaceAfter, other, Bool.false_eq_true, if_false, replaceAll]
  | cons d rest ih =>
      cases skip with
      | succ skip => exact ih skip (Nat.le_of_succ_le_succ within)
      | zero =>
          have alike :
              word.isPrefixOf (d :: (rest ++ c :: tail)) = word.isPrefixOf (d :: rest) := by
            have short : word <+: (d :: rest) ++ c :: tail → word <+: d :: rest :=
              prefix_of_free free
            rw [Bool.eq_iff_iff, List.isPrefixOf_iff_prefix, List.isPrefixOf_iff_prefix]
            exact ⟨short, fun begins => begins.trans (List.prefix_append _ _)⟩
          simp only [List.cons_append, replaceAfter, alike]
          split
          · rename_i begins
            have short : word.length - 1 ≤ rest.length := by
              have bound := (List.isPrefixOf_iff_prefix.mp begins).length_le
              simp only [List.length_cons] at bound
              omega
            rw [ih _ short, List.append_assoc]
          · rw [ih 0 (Nat.zero_le _), List.cons_append]

theorem ascending_pairwise (values : List String) : (ascending values).Pairwise (· ≤ ·) := by
  have sorted : (ascending values).Pairwise fun first second => decide (first ≤ second) = true :=
    List.pairwise_mergeSort (fun first second third => by simpa using le_trans)
      (fun first second => by simpa using le_total first second) values
  exact sorted.imp of_decide_eq_true

end Text

namespace FileKind

variable {kind : FileKind} {verb : Option Verb} {schema item : Option String}

/-- What stands in a template behind a slash, and holds no place, stays at the end. -/
theorem fill_behind {template : String} {place : Placeholder} {value : Option String}
    {text tail out : List Char} (absent : Text.occurs place.token ('/' :: tail) = false)
    (filled : fill template place value (text ++ '/' :: tail) = .ok out) :
    ∃ start, out = start ++ '/' :: tail := by
  have free : '/' ∉ place.token := by cases place <;> decide
  unfold fill at filled
  split at filled
  · split at filled <;> cases filled
    have filled : place.token ≠ [] := List.cons_ne_nil _ _
    rw [Text.replaceAll, Text.replaceAfter_before free filled text 0 (Nat.zero_le _),
      Text.replaceAll_of_absent (Text.occurs_of_cons absent)]
    exact ⟨_, rfl⟩
  · cases filled
    exact ⟨text, rfl⟩

theorem render_behind {pattern : String} {start tail : List Char}
    (shape : kind.template.toList = start ++ '/' :: tail)
    (absent : ∀ place : Placeholder, Text.occurs place.token ('/' :: tail) = false)
    (rendered : kind.render verb schema item = .ok pattern) :
    ∃ start, pattern.toList = start ++ '/' :: tail := by
  simp only [render, shape] at rendered
  split at rendered
  · cases rendered
  · rename_i first filled
    obtain ⟨start, rfl⟩ := fill_behind (absent _) filled
    split at rendered
    · cases rendered
    · rename_i second filled
      obtain ⟨start, rfl⟩ := fill_behind (absent _) filled
      obtain ⟨out, last, rfl⟩ := Outcome.map_eq_ok.mp rendered
      obtain ⟨start, rfl⟩ := fill_behind (absent _) last
      exact ⟨start, by simp⟩

/-- Patterns of seeds end in an asterisk and some extensions, whatever fills the template. -/
theorem seeds_shape (seeds : kind.isScripts = false) : ∃ start tail extensions,
    kind.template.toList = start ++ '/' :: tail ∧ '/' ∉ tail ∧
      (∀ place : Placeholder, Text.occurs place.token ('/' :: tail) = false) ∧
      Glob.ofSegment (String.ofList tail) = Planner.seedGlob extensions ∧
      ∀ extension ∈ extensions, Planner.IsExtension extension := by
  have none {tail : List Char} (absent : ∀ place ∈ [Placeholder.schema, .item, .verb],
      Text.occurs place.token ('/' :: tail) = false) (place : Placeholder) :
      Text.occurs place.token ('/' :: tail) = false := absent place (by cases place <;> simp)
  cases kind <;> first | contradiction | skip
  case databaseSeeds =>
    exact ⟨"seeds".toList, "*.\x7bsql,sh,ddsl\x7d".toList, ["sql", "sh", "ddsl"], rfl, by decide,
      none (by decide), rfl, by decide⟩
  case schemaSeeds =>
    exact ⟨"schemas/\x7bschema\x7d/seeds".toList, "*.\x7bsql,csv,sh,ddsl\x7d".toList,
      ["sql", "csv", "sh", "ddsl"], rfl, by decide, none (by decide), rfl, by decide⟩
  case tableSeeds =>
    exact ⟨"schemas/\x7bschema\x7d/tables/\x7bitem\x7d/seeds".toList,
      "*.\x7bcsv,sql\x7d".toList, ["csv", "sql"], rfl, by decide, none (by decide), rfl,
      by decide⟩

/-- No pattern of the layout accepts a name that ends as escaped forms do. -/
theorem render_accepts {pattern name : String}
    (rendered : kind.render verb schema item = .ok pattern)
    (accepted : (Glob.ofSegment (Path.splitFile pattern).2).accepts name = true) :
    name.toList.getLast? ≠ some '"' := by
  cases sort : kind.isScripts with
  | true =>
      obtain ⟨start, whole⟩ := render_ends sort rendered
      have ends : pattern.toList.getLast? = some 'l' := by simp [whole]
      rw [Glob.getLast_of_accepts (by decide) (by decide) (by decide)
        (Path.getLast_splitFile (by decide) ends) accepted]
      decide
  | false =>
      obtain ⟨_, tail, extensions, shape, free, absent, glob, letters⟩ := seeds_shape sort
      obtain ⟨start, whole⟩ := render_behind shape absent rendered
      have pieces : pattern = String.ofList start ++ "/" ++ String.ofList tail := by
        apply String.ext
        simp [whole]
      rw [pieces, Path.splitFile_append _ (by simpa using free), Glob.accepts_iff, glob] at accepted
      obtain ⟨stem, ending, named, -, -, among⟩ := Glob.matches_extension accepted
      obtain ⟨extension, within, rfl⟩ := List.mem_map.mp among
      rw [named]
      exact (letters extension within).ends stem

end FileKind

namespace Snapshot

variable {snapshot : Snapshot} {names : List String}

/-- The names lead to a file. -/
def IsFile (snapshot : Snapshot) (names : List String) : Prop :=
  ∃ content, snapshot.reach names = .node (.file content)

/-- Each name that leads on is held by the folder that those before it lead to. -/
theorem Tidy.names_holdable (tidy : snapshot.Tidy) {node : Node}
    (led : snapshot.reach names = .node node) : ∀ name ∈ names, Path.Holdable name := by
  intro name member
  obtain ⟨before, after, rfl⟩ := List.append_of_mem member
  have split : before ++ name :: after = before ++ [name] ++ after := by simp
  rw [split] at led
  obtain ⟨inner, here⟩ : ∃ inner, snapshot.reach (before ++ [name]) = .node inner := by
    cases after with
    | nil => exact ⟨node, by simpa using led⟩
    | cons next rest =>
        obtain ⟨folder, reached⟩ := reach_folder (List.cons_ne_nil _ _) led
        exact ⟨_, reached⟩
  exact tidy.held (held_of_reach here)

theorem hasFile_iff (proper : ∀ name ∈ names, Path.IsName name) :
    snapshot.HasFile (Path.ofSegments names) ↔ snapshot.IsFile names := by
  unfold HasFile IsFile
  rw [(Plan.Written.of_names proper).steps proper]

end Snapshot

namespace Plan

/-- A folder fits a segment that has wildcards if its name is accepted, and any other segment if it
is the name. -/
def FolderMatches (segment name : String) : Prop :=
  if Path.isWildcard segment then (Glob.ofSegment segment).accepts name = true else name = segment

/-- The names have one folder for each segment of a pattern but the last, and a file that the last
one accepts. -/
def Matches : List String → List String → Prop
  | [file], [name] => (Glob.ofSegment file).accepts name = true
  | segment :: segments, name :: names => FolderMatches segment name ∧ Matches segments names
  | _, _ => False

instance (segment name : String) : Decidable (FolderMatches segment name) :=
  inferInstanceAs (Decidable (if Path.isWildcard segment then _ else _))

def decideMatches : (segments names : List String) → Decidable (Matches segments names)
  | [file], [name] => inferInstanceAs (Decidable ((Glob.ofSegment file).accepts name = true))
  | segment :: next :: segments, name :: names =>
      have := decideMatches (next :: segments) names
      inferInstanceAs (Decidable (FolderMatches segment name ∧ Matches (next :: segments) names))
  | [segment], name :: next :: names =>
      have := decideMatches [] (next :: names)
      inferInstanceAs (Decidable (FolderMatches segment name ∧ Matches [] (next :: names)))
  | [], _ => isFalse (by simp [Matches])
  | [_], [] => isFalse (by simp [Matches])
  | _ :: _ :: _, [] => isFalse (by simp [Matches])

instance (segments names : List String) : Decidable (Matches segments names) :=
  decideMatches segments names

variable {segments names : List String} {file : String}

theorem matches_append {name : String} : Matches (segments ++ [file]) (names ++ [name]) ↔
    List.Forall₂ FolderMatches segments names ∧ (Glob.ofSegment file).accepts name = true := by
  induction segments generalizing names with
  | nil => rcases names with - | ⟨first, - | ⟨second, rest⟩⟩ <;> simp [Matches]
  | cons segment segments ih =>
      cases names with
      | nil => cases segments <;> simp [Matches]
      | cons first rest =>
          have later : Matches (segment :: segments ++ [file]) (first :: rest ++ [name]) ↔
              FolderMatches segment first ∧ Matches (segments ++ [file]) (rest ++ [name]) := by
            cases segments <;> cases rest <;> rfl
          rw [later, ih, List.forall₂_cons, and_assoc]

/-- What matches anything has a last name. -/
theorem Matches.filled {pattern : List String} (agrees : Matches pattern names) :
    ∃ folders name, names = folders ++ [name] := by
  rcases List.eq_nil_or_concat names with rfl | ⟨folders, name, rfl⟩
  · rcases pattern with - | ⟨first, - | ⟨second, rest⟩⟩ <;> simp [Matches] at agrees
  · exact ⟨folders, name, List.concat_eq_append⟩

theorem chosen_iff {segment name : String} (proper : Path.IsName name) :
    Chosen segment name ↔ FolderMatches segment name := by
  unfold Chosen FolderMatches
  split
  · exact and_iff_right proper
  · rfl

theorem folderMatches_of_chosen {folders : List String}
    (proper : ∀ name ∈ folders, Path.IsName name) :
    List.Forall₂ Chosen segments folders ↔ List.Forall₂ FolderMatches segments folders := by
  induction folders generalizing segments with
  | nil => simp [List.forall₂_nil_right_iff]
  | cons name rest ih =>
      obtain ⟨here, later⟩ := List.forall_mem_cons.mp proper
      simp only [List.forall₂_cons_right_iff, chosen_iff here, ih later]

section Expand

variable {snapshot : Snapshot} {pattern path : String} {paths : List String}

/-- What a pattern is expanded to ascends, byte by byte. -/
theorem expand_ascends (tidy : snapshot.Tidy) (orderly : snapshot.Orderly)
    (straight : Straight (Path.splitFile pattern).1)
    (expanded : expand snapshot pattern = .ok paths) : paths.Pairwise (· < ·) := by
  have distinct := expand_nodup tidy orderly straight expanded
  obtain ⟨directories, files, -, -, rfl⟩ := expand_eq_ok straight expanded
  exact (Text.ascending_pairwise _).imp₂ (fun _ _ => lt_of_le_of_ne) distinct

/-- A pattern spells the paths of files that its segments match. -/
theorem spells_iff {segments names : List String} {file name : String}
    (proper : ∀ segment ∈ segments, Path.IsName segment) (free : '/' ∉ file.toList)
    (named : ∀ folder ∈ names, Path.IsName folder) (last : Path.IsName name) :
    snapshot.HasFile (Path.ofSegments (names ++ [name])) ∧
        Spells (Path.ofSegments (segments ++ [file])) (Path.ofSegments (names ++ [name])) ↔
      snapshot.IsFile (names ++ [name]) ∧ Matches (segments ++ [file]) (names ++ [name]) := by
  have all : ∀ part ∈ names ++ [name], Path.IsName part :=
    List.forall_mem_append.mpr ⟨named, List.forall_mem_singleton.mpr last⟩
  rw [Snapshot.hasFile_iff all, spells_ofSegments proper free named last,
    folderMatches_of_chosen named, matches_append]

/-- Two tables, the name of one of which begins with that of the other. -/
def neighbours : Snapshot :=
  .disk ⟨".", .node (.folder (.folder "schemas" (.folder "app" (.folder "tables"
    (.folder "a" (.file "table.create.sql" (.text "create table a (id)") .nil)
      (.folder "a-b" (.file "table.create.sql" (.text "create table \"a-b\" (id)") .nil) .nil))
    .nil) .nil) .nil))⟩

/-- A ref with a seed file whose name holds a quotation mark. -/
def quotedSeed : Snapshot :=
  .revision ⟨"main", .node (.folder (.folder "seeds"
    (.file "a\"b.sql" (.text "SELECT 1") .nil) .nil))⟩

end Expand

end Plan

end Rollout
