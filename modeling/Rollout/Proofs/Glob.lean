import Rollout.Glob

/-!
What patterns accept, and what the names that a pattern accepts look like.
-/

namespace Rollout.Glob

/-- The pieces of a name that a part stands for. -/
def Part.Takes : Part → List Char → Prop
  | letter c, piece => piece = [c]
  | wildcard, piece => piece ≠ [] ∧ ∀ c ∈ piece, isPlain c = true
  | oneOf choices, piece => piece ∈ choices

/-- The name is a piece for each part, in order. -/
def Matches : Glob → List Char → Prop
  | [], name => name = []
  | part :: glob, name =>
      ∃ piece rest, name = piece ++ rest ∧ part.Takes piece ∧ Matches glob rest

theorem mem_afterWildcard {text rest : List Char} :
    rest ∈ afterWildcard text ↔ ∃ piece, text = piece ++ rest ∧ Part.wildcard.Takes piece := by
  induction text with
  | nil =>
      constructor
      · intro member
        cases member
      · rintro ⟨piece, text, filled, -⟩
        exact absurd (List.append_eq_nil_iff.mp text.symm).1 filled
  | cons c text ih =>
      unfold afterWildcard
      constructor
      · intro member
        split at member
        · rename_i plain
          rcases List.mem_cons.mp member with rfl | later
          · exact ⟨[c], rfl, by simp, by simpa using plain⟩
          · obtain ⟨piece, rfl, -, all⟩ := ih.mp later
            exact ⟨c :: piece, rfl, by simp, by simpa [plain] using all⟩
        · cases member
      · rintro ⟨piece, text, filled, all⟩
        cases piece with
        | nil => exact absurd rfl filled
        | cons d piece =>
            obtain ⟨rfl, rfl⟩ := List.cons.inj text
            have plain : isPlain c = true := all c List.mem_cons_self
            rw [if_pos plain]
            cases piece with
            | nil => simp
            | cons e piece =>
                refine List.mem_cons_of_mem _ (ih.mpr ⟨e :: piece, rfl, by simp, ?_⟩)
                exact fun d member => all d (List.mem_cons_of_mem _ member)

theorem afterChoice_eq_some {text choice rest : List Char} :
    afterChoice text choice = some rest ↔ text = choice ++ rest := by
  unfold afterChoice
  constructor
  · intro found
    split at found
    · rename_i starts
      obtain ⟨later, rfl⟩ := List.isPrefixOf_iff_prefix.mp starts
      simpa using Option.some.inj found
    · cases found
  · rintro rfl
    simp [List.isPrefixOf_iff_prefix]

theorem mem_rests_part {part : Part} {text rest : List Char} :
    rest ∈ part.rests text ↔ ∃ piece, text = piece ++ rest ∧ part.Takes piece := by
  cases part with
  | letter c =>
      cases text with
      | nil => simp [Part.rests, Part.Takes]
      | cons d text =>
          by_cases same : c = d
          · subst same
            simp [Part.rests, Part.Takes, eq_comm]
          · simp [Part.rests, Part.Takes, same, Ne.symm same]
  | wildcard => exact mem_afterWildcard
  | oneOf choices =>
      simp only [Part.rests, List.mem_filterMap, afterChoice_eq_some, Part.Takes]
      exact ⟨fun ⟨choice, member, text⟩ => ⟨choice, text, member⟩,
        fun ⟨choice, text, member⟩ => ⟨choice, member, text⟩⟩

theorem mem_rests {glob : Glob} {texts : List (List Char)} {rest : List Char} :
    rest ∈ rests glob texts ↔ ∃ text ∈ texts, ∃ name, text = name ++ rest ∧ Matches glob name := by
  induction glob generalizing texts with
  | nil => simp [rests, Matches]
  | cons part glob ih =>
      -- texts that are left more than once are gone on with once
      simp only [rests, ih, List.mem_eraseDups, List.mem_flatMap, mem_rests_part]
      constructor
      · rintro ⟨_, ⟨text, member, piece, rfl, takes⟩, name, rfl, matched⟩
        exact ⟨_, member, piece ++ name, by simp, piece, name, rfl, takes, matched⟩
      · rintro ⟨text, member, _, rfl, piece, name, rfl, takes, matched⟩
        exact ⟨name ++ rest, ⟨_, member, piece, by simp, takes⟩, name, rfl, matched⟩

/-- The search for a match finds one whenever there is one. -/
theorem accepts_iff (glob : Glob) (name : String) :
    glob.accepts name = true ↔ Matches glob name.toList := by
  simp only [accepts, List.any_eq_true, mem_rests, List.mem_singleton, List.isEmpty_iff]
  constructor
  · rintro ⟨_, ⟨_, rfl, taken, whole, matched⟩, rfl⟩
    rw [whole, List.append_nil]
    exact matched
  · intro matched
    exact ⟨[], ⟨name.toList, rfl, name.toList, by simp, matched⟩, rfl⟩

theorem matches_append {first second : Glob} {name : List Char} :
    Matches (first ++ second) name ↔
      ∃ start rest, name = start ++ rest ∧ Matches first start ∧ Matches second rest := by
  induction first generalizing name with
  | nil =>
      constructor
      · intro matched
        exact ⟨[], name, rfl, rfl, matched⟩
      · rintro ⟨_, rest, rfl, rfl, matched⟩
        exact matched
  | cons part glob ih =>
      simp only [List.cons_append, Matches, ih]
      constructor
      · rintro ⟨piece, _, rfl, takes, start, rest, rfl, one, two⟩
        exact ⟨piece ++ start, rest, by simp, ⟨piece, start, rfl, takes, one⟩, two⟩
      · rintro ⟨_, rest, rfl, ⟨piece, start, rfl, takes, one⟩, two⟩
        exact ⟨piece, start ++ rest, by simp, takes, start, rest, rfl, one, two⟩

/-- Letters that are nothing special spell themselves. -/
theorem read_letters {text : List Char} (question : '?' ∉ text) (asterisk : '*' ∉ text)
    (brace : '\x7b' ∉ text) : read 0 text = text.map .letter := by
  induction text with
  | nil => rfl
  | cons c rest ih =>
      simp only [List.mem_cons, not_or] at question asterisk brace
      have opened : c ≠ '\x7b' := Ne.symm brace.1
      have special : ¬ (c = '?' ∨ c = '*') :=
        not_or.mpr ⟨Ne.symm question.1, Ne.symm asterisk.1⟩
      rw [read, if_neg opened, if_neg special, ih question.2 asterisk.2 brace.2]
      rfl

theorem matches_letters {text name : List Char} :
    Matches (text.map .letter) name ↔ name = text := by
  induction text generalizing name with
  | nil => rfl
  | cons c rest ih => simp [Matches, Part.Takes, ih]

theorem matches_wildcard {name : List Char} :
    Matches [.wildcard] name ↔ name ≠ [] ∧ ∀ c ∈ name, isPlain c = true := by
  simp [Matches, Part.Takes]

theorem matches_extension {choices : List (List Char)} {name : List Char}
    (matched : Matches [.wildcard, .letter '.', .oneOf choices] name) :
    ∃ stem extension, name = stem ++ '.' :: extension ∧ stem ≠ [] ∧
      (∀ c ∈ stem, isPlain c = true) ∧ extension ∈ choices := by
  obtain ⟨stem, _, rfl, ⟨filled, plain⟩, _, _, rfl, rfl, extension, _, rfl, member, rfl⟩ := matched
  exact ⟨stem, extension, by simp, filled, plain, member⟩

-- Choices take up what ends with a closing brace, so a text without any behind them is left.
theorem choices_le {text tail inside : List Char} {taken : Nat} (free : '\x7d' ∉ tail)
    (found : choices? (text ++ tail) = some (inside, taken)) : taken ≤ text.length := by
  unfold choices? at found
  dsimp only at found
  split at found
  · rename_i closed
    obtain ⟨-, rfl⟩ := Prod.mk.inj (Option.some.inj found)
    generalize ((text ++ tail).takeWhile (!isBrace ·)).length = length at closed
    rw [List.head?_drop] at closed
    rcases Nat.lt_or_ge length text.length with inner | behind
    · exact inner
    · rw [List.getElem?_append_right behind] at closed
      exact absurd (List.mem_of_getElem? closed) free
  · cases found

/-- What is nothing special at the end of a segment spells itself. -/
theorem read_append {tail : List Char} (question : '?' ∉ tail) (asterisk : '*' ∉ tail)
    (opened : '\x7b' ∉ tail) (closed : '\x7d' ∉ tail) (text : List Char) (skip : Nat)
    (within : skip ≤ text.length) :
    ∃ glob, read skip (text ++ tail) = glob ++ tail.map .letter := by
  -- the reader skips what choices took up, so the claim is about any number of skipped characters
  induction text generalizing skip with
  | nil =>
      obtain rfl := Nat.le_zero.mp within
      exact ⟨[], read_letters question asterisk opened⟩
  | cons d text ih =>
      cases skip with
      | succ skip => exact ih skip (Nat.le_of_succ_le_succ within)
      | zero =>
          obtain ⟨glob, rest⟩ := ih 0 (Nat.zero_le _)
          simp only [List.cons_append, read]
          split
          · split
            · rename_i inside taken found
              obtain ⟨later, after⟩ := ih taken (choices_le closed found)
              exact ⟨.oneOf (Text.pieces ',' inside) :: later, by rw [after]; rfl⟩
            · exact ⟨.letter d :: glob, by rw [rest]; rfl⟩
          · split
            · exact ⟨.wildcard :: glob, by rw [rest]; rfl⟩
            · exact ⟨.letter d :: glob, by rw [rest]; rfl⟩

/-- Names accepted by a segment end as the segment does, where that is nothing special. -/
theorem ends_of_accepts {segment name : String} {text tail : List Char} (question : '?' ∉ tail)
    (asterisk : '*' ∉ tail) (opened : '\x7b' ∉ tail) (closed : '\x7d' ∉ tail)
    (ends : segment.toList = text ++ tail) (accepted : (ofSegment segment).accepts name = true) :
    ∃ start, name.toList = start ++ tail := by
  obtain ⟨glob, spelled⟩ := read_append question asterisk opened closed text 0 (Nat.zero_le _)
  rw [accepts_iff, ofSegment, ends, spelled, matches_append] at accepted
  obtain ⟨start, rest, whole, -, last⟩ := accepted
  rw [matches_letters] at last
  exact ⟨start, by rw [whole, last]⟩

/-- In particular they end with the character that it ends with. -/
theorem getLast_of_accepts {segment name : String} {c : Char} (brace : isBrace c = false)
    (question : c ≠ '?') (asterisk : c ≠ '*') (ends : segment.toList.getLast? = some c)
    (accepted : (ofSegment segment).accepts name = true) : name.toList.getLast? = some c := by
  obtain ⟨text, whole⟩ := List.getLast?_eq_some_iff.mp ends
  have opened : c ≠ '\x7b' := by
    rintro rfl
    cases brace
  have closed : c ≠ '\x7d' := by
    rintro rfl
    cases brace
  obtain ⟨start, last⟩ := ends_of_accepts (by simpa using question.symm)
    (by simpa using asterisk.symm) (by simpa using opened.symm) (by simpa using closed.symm) whole
    accepted
  simp [last]

end Rollout.Glob
