import Mathlib
import Rollout.Location
import Rollout.Proofs.Statement.Division
import Rollout.Proofs.Text

/-!
A location survives printing. What is printed spells it again, with white space around it or
without, so a location is as good as the text that it is printed as.
-/

namespace Rollout

namespace Text

variable {text before after : List Char}

/-- Trimming leaves no white space at the end. -/
theorem trim_ends (text : List Char) : ∀ c ∈ (trim text).getLast?, isBlank c = false := by
  intro c last
  rw [trim, trimEnd, List.getLast?_reverse] at last
  have kept := List.head?_dropWhile_not isBlank (trimStart text).reverse
  rw [Option.mem_def.mp last] at kept
  simpa using kept

/-- White space on both sides of a text that has none at its ends is all that is trimmed. -/
theorem trim_between (starts : ∀ c ∈ text.head?, isBlank c = false)
    (ends : ∀ c ∈ text.getLast?, isBlank c = false) (filled : text ≠ [])
    (first : allBlank before = true) (last : allBlank after = true) :
    trim (before ++ text ++ after) = text := by
  rw [List.append_assoc, trim_append first]
  exact trim_append_blank starts ends filled last

end Text

namespace Location

theorem cutScheme_eq_some {text before after : List Char}
    (cut : cutScheme text = some (before, after)) : text = before ++ "://".toList ++ after := by
  induction text using cutScheme.induct generalizing before with
  | case1 rest =>
      obtain ⟨rfl, rfl⟩ := Prod.mk.inj (Option.some.inj cut)
      rfl
  | case2 => cases cut
  | case3 c rest other ih =>
      rw [cutScheme, Option.map_eq_some_iff] at cut
      · obtain ⟨⟨first, last⟩, later, same⟩ := cut
        obtain ⟨rfl, rfl⟩ := Prod.mk.inj same
        rw [ih later]
        rfl
      · exact other

/-- The separator starts with a colon, so the first one is found where the first colon is. -/
theorem cutScheme_append {before : List Char} (after : List Char) (free : ':' ∉ before) :
    cutScheme (before ++ "://".toList ++ after) = some (before, after) := by
  induction before with
  | nil => rfl
  | cons c rest ih =>
      have other : c ≠ ':' := fun same => free (same ▸ List.mem_cons_self)
      have later : ':' ∉ rest := fun member => free (List.mem_cons_of_mem _ member)
      rw [List.cons_append, List.cons_append, cutScheme, ih later]
      · rfl
      · intro more same
        exact absurd same other

theorem isSchemeLetter_toLower {c : Char} (letter : isSchemeLetter c = true) :
    isSchemeLetter c.toLower = true := by
  by_cases upper : c.isUpper = true
  · have alpha : c.toLower.isAlpha = true := by simp [Char.isAlpha, upper]
    simp [isSchemeLetter, Char.isAlphanum, alpha]
  · rwa [Char.toLower_eq_of_not_isUpper upper]

/-- The letters of a scheme are printing characters of ASCII, and the colon is none of them. -/
theorem isSchemeLetter_visible {c : Char} (letter : isSchemeLetter c = true) :
    Text.isBlank c = false ∧ c ≠ ':' := by
  simp only [isSchemeLetter, Char.isAlphanum, Char.isAlpha, Char.isUpper, Char.isLower,
    Char.isDigit, UInt32.le_iff_toNat_le, ge_iff_le, Bool.or_eq_true, Bool.and_eq_true,
    decide_eq_true_eq, beq_iff_eq] at letter
  change (((65 ≤ c.toNat ∧ c.toNat ≤ 90 ∨ 97 ≤ c.toNat ∧ c.toNat ≤ 122) ∨
    48 ≤ c.toNat ∧ c.toNat ≤ 57) ∨ c = '+') ∨ c = '-' at letter
  rcases letter with (within | rfl) | rfl
  · constructor
    · simp only [Text.isBlank, Bool.or_eq_false_iff, Bool.and_eq_false_iff, decide_eq_false_iff_not,
        beq_eq_false_iff_ne]
      omega
    · rintro rfl
      revert within
      decide
  · decide
  · decide

/-- A location that some text spells. -/
structure Spelled (location : Location) : Prop where
  named : location.scheme.toList ≠ []
  letters : ∀ c ∈ location.scheme.toList, isSchemeLetter c = true ∧ c.toLower = c
  filled : location.path.toList ≠ []
  plain : location.fragment = none → '#' ∉ location.path.toList
  last : ∀ fragment ∈ location.fragment, fragment.toList ≠ [] ∧ '#' ∉ fragment.toList
  ends : ∀ c ∈ location.written.toList.getLast?, Text.isBlank c = false

/-- What is printed behind the scheme. -/
def body (location : Location) : List Char :=
  location.path.toList ++
    match location.fragment with
    | some fragment => '#' :: fragment.toList
    | none => []

theorem written_toList (location : Location) :
    location.written.toList = location.scheme.toList ++ "://".toList ++ location.body := by
  rcases location with ⟨scheme, path, _ | fragment⟩ <;> simp [written, body]

theorem readFragment_eq_some {rest path : List Char} {fragment : Option String}
    (found : readFragment rest = some (path, fragment)) :
    (fragment = none ∧ path = rest ∧ '#' ∉ rest) ∨
      ∃ text : String, fragment = some text ∧ rest = path ++ '#' :: text.toList ∧
        text.toList ≠ [] ∧ '#' ∉ text.toList := by
  rw [readFragment] at found
  split at found
  · rename_i cut
    obtain ⟨rfl, rfl⟩ := Prod.mk.inj (Option.some.inj found)
    exact .inl ⟨rfl, rfl, Text.cutLast_eq_none cut⟩
  · cases found
  · rename_i before after filled cut
    obtain ⟨rfl, rfl⟩ := Prod.mk.inj (Option.some.inj found)
    obtain ⟨same, free⟩ := Text.cutLast_eq_some cut
    refine .inr ⟨String.ofList after, rfl, ?_⟩
    rw [String.toList_ofList]
    exact ⟨same, filled, free⟩

/-- The number sign that is printed is the last one, so it is where the fragment starts. -/
theorem readFragment_body {location : Location} (spelled : Spelled location) :
    readFragment location.body = some (location.path.toList, location.fragment) := by
  cases held : location.fragment with
  | none =>
      have whole : location.body = location.path.toList := by simp [body, held]
      rw [whole, readFragment, Text.cutLast_of_free (spelled.plain held)]
  | some fragment =>
      obtain ⟨filled, free⟩ := spelled.last fragment held
      have whole : location.body = location.path.toList ++ '#' :: fragment.toList := by
        simp [body, held]
      rw [whole, readFragment, Text.cutLast_append _ free]
      obtain ⟨c, rest, letters⟩ := List.exists_cons_of_ne_nil filled
      simp only [letters, Option.some.injEq, Prod.mk.injEq, true_and]
      rw [← letters, String.ofList_toList]

theorem read_written {location : Location} (spelled : Spelled location) :
    read location.written.toList = some location := by
  have free : ':' ∉ location.scheme.toList := fun member =>
    (isSchemeLetter_visible (spelled.letters ':' member).1).2 rfl
  have low : location.scheme.toList.map Char.toLower = location.scheme.toList := by
    have same : ∀ c ∈ location.scheme.toList, c.toLower = id c := fun c member =>
      (spelled.letters c member).2
    rw [List.map_congr_left same, List.map_id]
  have named : readScheme location.written.toList = some (location.scheme, location.body) := by
    rw [written_toList, readScheme, cutScheme_append _ free]
    have fits : (!location.scheme.toList.isEmpty &&
        location.scheme.toList.all isSchemeLetter) = true := by
      simp only [Bool.and_eq_true, Bool.not_eq_true', List.isEmpty_eq_false_iff, List.all_eq_true]
      exact ⟨spelled.named, fun c member => (spelled.letters c member).1⟩
    simp only [fits, low, String.ofList_toList, if_true]
  rw [read, named]
  simp only [readFragment_body spelled, String.ofList_toList]
  rw [if_neg (by simpa using spelled.filled)]

/-- What is printed starts with a letter of the scheme, so the white space around it is all that
is trimmed. -/
theorem parse_spelled {location : Location} (spelled : Spelled location) {before after : String}
    (first : Text.allBlank before.toList = true) (last : Text.allBlank after.toList = true) :
    parse (before ++ location.written ++ after) = .ok location := by
  obtain ⟨c, rest, letters⟩ := List.exists_cons_of_ne_nil spelled.named
  have opens : location.written.toList = c :: (rest ++ "://".toList ++ location.body) := by
    rw [written_toList, letters]
    rfl
  have starts : ∀ d ∈ location.written.toList.head?, Text.isBlank d = false := by
    intro d member
    rw [opens] at member
    obtain rfl := Option.some.inj member
    exact (isSchemeLetter_visible (spelled.letters c (by simp [letters])).1).1
  have trimmed : Text.trim (before ++ location.written ++ after).toList =
      location.written.toList := by
    rw [String.toList_append, String.toList_append]
    exact Text.trim_between starts spelled.ends (by simp [opens]) first last
  rw [parse, trimmed, read_written spelled]

theorem readScheme_eq_some {text rest : List Char} {scheme : String}
    (found : readScheme text = some (scheme, rest)) :
    rest <:+ text ∧ scheme.toList ≠ [] ∧
      ∀ c ∈ scheme.toList, isSchemeLetter c = true ∧ c.toLower = c := by
  rw [readScheme] at found
  split at found
  · obtain ⟨rfl, rfl⟩ := Prod.mk.inj (Option.some.inj found)
    exact ⟨List.suffix_refl _, by decide, by simp [defaultScheme, isSchemeLetter]⟩
  · rename_i before after cut
    split at found
    · rename_i fits
      obtain ⟨rfl, rfl⟩ := Prod.mk.inj (Option.some.inj found)
      simp only [Bool.and_eq_true, Bool.not_eq_true', List.isEmpty_eq_false_iff,
        List.all_eq_true] at fits
      refine ⟨⟨_, (cutScheme_eq_some cut).symm⟩, by simpa using fits.1, ?_⟩
      intro c member
      rw [String.toList_ofList] at member
      obtain ⟨d, within, rfl⟩ := List.mem_map.mp member
      exact ⟨isSchemeLetter_toLower (fits.2 d within), Char.toLower_toLower_eq_toLower d⟩
    · cases found

theorem spelled_of_read {text : List Char} {location : Location}
    (ends : ∀ c ∈ text.getLast?, Text.isBlank c = false) (found : read text = some location) :
    Spelled location := by
  rw [read] at found
  split at found
  · cases found
  rename_i scheme rest foundScheme
  split at found
  · cases found
  rename_i path fragment foundFragment
  split at found
  · cases found
  rename_i filled
  obtain rfl := Option.some.inj found
  obtain ⟨suffix, named, letters⟩ := readScheme_eq_some foundScheme
  have nonempty : path ≠ [] := by simpa using filled
  have parts : body ⟨scheme, String.ofList path, fragment⟩ = rest ∧
      (fragment = none → '#' ∉ path) ∧
        ∀ text ∈ fragment, text.toList ≠ [] ∧ '#' ∉ text.toList := by
    rcases readFragment_eq_some foundFragment with ⟨rfl, rfl, free⟩ | ⟨held, rfl, rfl, last, free⟩
    · exact ⟨by simp [body], fun _ => free, nofun⟩
    · refine ⟨by simp [body], nofun, ?_⟩
      rintro text ⟨⟩
      exact ⟨last, free⟩
  obtain ⟨whole, plain, last⟩ := parts
  have more : rest ≠ [] := by
    rw [← whole]
    simp [body, nonempty]
  refine ⟨named, letters, by simpa using nonempty, by simpa using plain, last, ?_⟩
  -- What follows the scheme is kept as it is, so what is printed ends as the text does.
  intro c member
  rw [written_toList, whole, List.getLast?_append_of_ne_nil _ more] at member
  obtain ⟨before, rfl⟩ := suffix
  apply ends c
  rwa [List.getLast?_append_of_ne_nil _ more]

theorem spelled_of_parse {text : String} {location : Location}
    (parsed : parse text = .ok location) : Spelled location := by
  rw [parse] at parsed
  split at parsed
  · rename_i found
    obtain rfl := Except.ok.inj parsed
    exact spelled_of_read (Text.trim_ends _) found
  · cases parsed

/-- A location that a text spells is spelled by what it is printed as, too, whatever white space
stands around that. Two texts spell the same location if and only if the two are printed alike. -/
theorem parse_written {text : String} {location : Location} (parsed : parse text = .ok location) :
    parse location.written = .ok location ∧
      (∀ before after : String, Text.allBlank before.toList = true →
        Text.allBlank after.toList = true →
          parse (before ++ location.written ++ after) = .ok location) ∧
      ∀ (other : String) (second : Location), parse other = .ok second →
        (parse text = parse other ↔ location.written = second.written) := by
  have spelled := spelled_of_parse parsed
  have again : ∀ {held : Location}, Spelled held → parse held.written = .ok held := by
    intro held sound
    have bare : parse ("" ++ held.written ++ "") = .ok held := parse_spelled sound rfl rfl
    rwa [String.empty_append, String.append_empty] at bare
  refine ⟨again spelled, fun before after => parse_spelled spelled, fun other second found => ?_⟩
  constructor
  · intro same
    rw [parsed, found] at same
    rw [Except.ok.inj same]
  · intro same
    have back : parse second.written = .ok second := again (spelled_of_parse found)
    rw [← same, again spelled] at back
    rw [parsed, found, back]

theorem parse_written_release : parse "GIT:// /srv//a#b://c#release " =
      .ok ⟨"git", " /srv//a#b://c", some "release"⟩ ∧
    parse "\tgit:// /srv//a#b://c#release\n" = .ok ⟨"git", " /srv//a#b://c", some "release"⟩ := by
  have parsed : parse "GIT:// /srv//a#b://c#release " =
      .ok ⟨"git", " /srv//a#b://c", some "release"⟩ := by rfl
  exact ⟨parsed, (parse_written parsed).2.1 "\t" "\n" rfl rfl⟩

end Location

end Rollout
