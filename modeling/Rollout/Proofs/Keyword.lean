import Mathlib
import Rollout.Grammar.Basic

/-!
Keywords in any case. They are written with letters and hyphens, so that they differ from names in
lists, paths and numbers; where no two of a row are the same word, each of them is found.
-/

namespace Rollout.Text

theorem toLower_eq_iff {c d : Char} (other : d.isAlpha = false) : c.toLower = d ↔ c = d := by
  constructor
  · intro lower
    have plain : ¬ c.isUpper = true := by
      intro upper
      have letter : c.isAlpha = true := by simp [Char.isAlpha, upper]
      rw [← Char.isAlpha_toLower_eq_isAlpha, lower, other] at letter
      cases letter
    rwa [Char.toLower_eq_of_not_isUpper plain] at lower
  · rintro rfl
    apply Char.toLower_eq_of_not_isUpper
    intro upper
    simp [Char.isAlpha, upper] at other

/-- A character that is no letter is found in a text if it is found in lower case. -/
theorem mem_map_toLower {text : List Char} {d : Char} (other : d.isAlpha = false) :
    d ∈ text.map Char.toLower ↔ d ∈ text := by
  simp [toLower_eq_iff other]

end Rollout.Text

namespace Rollout

/-- Is it written with letters and hyphens, with a letter first? -/
def isKeyword (name : String) : Bool :=
  name.toList.head?.any Char.isAlpha && name.toList.all fun c => c.isAlpha || c == '-'

theorem sameWord_iff {first second : String} : sameWord first second = true ↔
    first.toList.map Char.toLower = second.toList.map Char.toLower := by
  simp [sameWord]

/-- Only what a word is in lower case counts. -/
theorem isKeyword_lower (name : String) :
    isKeyword name = ((name.toList.map Char.toLower).head?.any Char.isLower &&
      (name.toList.map Char.toLower).all fun c => c.isLower || c == '-') := by
  have hyphen (c : Char) : (c.toLower == '-') = (c == '-') := by
    rw [Bool.eq_iff_iff, beq_iff_eq, beq_iff_eq, Text.toLower_eq_iff (by decide)]
  simp only [isKeyword, List.head?_map, Option.any_map, List.all_map, Function.comp_def,
    Char.isLower_toLower_eq_isAlpha, hyphen]

/-- What is a keyword in one case is a keyword in another. -/
theorem isKeyword_of_sameWord {name word : String} (keyword : isKeyword name = true)
    (same : sameWord name word = true) : isKeyword word = true := by
  rw [isKeyword_lower, ← sameWord_iff.mp same, ← isKeyword_lower]
  exact keyword

namespace Grammar

/-- The keywords of the first row, each with the grammar of what may follow it. -/
def entries : Grammar → List (Keyword × Grammar)
  | nil => []
  | cons keyword below beside => (keyword, below) :: beside.entries

/-- Can the keywords of each row be told apart, and from names that are no keywords? -/
def isClear : Grammar → Bool
  | nil => true
  | cons keyword below beside =>
      isKeyword keyword.name && beside.entries.all (fun other => !sameWord keyword.name other.1.name)
        && below.isClear && beside.isClear

variable {grammar below : Grammar}

theorem isClear_entry {keyword : Keyword} (clear : grammar.isClear = true)
    (entry : (keyword, below) ∈ grammar.entries) :
    isKeyword keyword.name = true ∧ below.isClear = true := by
  induction grammar with
  | nil => cases entry
  | cons first inside beside _ ih =>
      simp only [isClear, Bool.and_eq_true] at clear
      obtain ⟨⟨⟨name, -⟩, deeper⟩, others⟩ := clear
      rcases List.mem_cons.mp entry with same | later
      · cases same
        exact ⟨name, deeper⟩
      · exact ih others later

/-- In whatever case it is written, a keyword leads to what may follow it. -/
theorem find_entry {keyword : Keyword} {word : String} (clear : grammar.isClear = true)
    (entry : (keyword, below) ∈ grammar.entries) (same : sameWord keyword.name word = true) :
    grammar.find? word = some (keyword, below) := by
  induction grammar with
  | nil => cases entry
  | cons first inside beside _ ih =>
      simp only [isClear, Bool.and_eq_true] at clear
      obtain ⟨⟨⟨-, distinct⟩, -⟩, others⟩ := clear
      rcases List.mem_cons.mp entry with here | later
      · cases here
        rw [find?, if_pos same]
      · have other : sameWord first.name word = false := by
          have differs := List.all_eq_true.mp distinct _ later
          rw [Bool.eq_false_iff]
          intro both
          have equal : sameWord first.name keyword.name = true :=
            sameWord_iff.mpr ((sameWord_iff.mp both).trans (sameWord_iff.mp same).symm)
          rw [equal] at differs
          cases differs
        rw [find?, if_neg (by simp [other]), ih others later]

end Grammar

end Rollout
