import Rollout.Word
import Rollout.Proofs.Statement

/-!
Telling the words of a statement apart gives back the items that it was written from.
-/

namespace Rollout

/-- One item of a statement, as it is written. -/
inductive Lexeme where
  | bare (text : String)
  /-- A text that is written between two grave accents. -/
  | literal (text : String)
deriving DecidableEq, Repr

namespace Lexeme

/-- Nothing in the text ends a word or a statement. -/
def IsBare (text : String) : Prop :=
  text ≠ "" ∧ ∀ c ∈ text.toList, Text.isBlank c = false ∧ c ≠ ';' ∧ c ≠ Statement.mark

def Sound : Lexeme → Prop
  | bare text => IsBare text
  | literal text => Statement.mark ∉ text.toList

def written : Lexeme → List Char
  | bare text => text.toList
  | literal text => Statement.mark :: text.toList ++ [Statement.mark]

def word : Lexeme → Word
  | bare text => Word.classify text.toList
  | literal text => .literal text

/-- White space that does not end a statement. -/
def IsGap (gap : List Char) : Prop := gap ≠ [] ∧ ∀ c ∈ gap, Text.isBlank c = true ∧ c ≠ '\n'

/-- Items are written one after another, with white space in between. -/
inductive Spaced : List Lexeme → List Char → Prop where
  | last (item : Lexeme) : Spaced [item] item.written
  | next (item : Lexeme) {gap : List Char} {rest : List Lexeme} {text : List Char}
      (isGap : IsGap gap) (spaced : Spaced rest text) :
      Spaced (item :: rest) (item.written ++ (gap ++ text))

/-- Outside of statements, only white space is blank. -/
theorem not_blank_semicolon {c : Char} (blank : Text.isBlank c = true) :
    c ≠ ';' ∧ c ≠ Statement.mark := by
  constructor <;> rintro rfl <;> exact absurd blank (by decide)

theorem stretch_of_inside {letters : List Char}
    (inside : ∀ c ∈ letters, c ≠ '\n' ∧ c ≠ ';' ∧ c ≠ Statement.mark) :
    Statement.Stretch letters := by
  induction letters with
  | nil => exact .nil
  | cons c rest ih =>
      obtain ⟨first, others⟩ := List.forall_mem_cons.mp inside
      exact .plain first (ih others)

variable {item : Lexeme} {items : List Lexeme} {text : List Char}

theorem Sound.stretch (sound : item.Sound) : Statement.Stretch item.written := by
  cases item with
  | bare text =>
      refine stretch_of_inside fun c member => ⟨?_, (sound.2 c member).2⟩
      rintro rfl
      exact absurd (sound.2 _ member).1 (by decide)
  | literal text => exact .literal sound .nil

theorem Sound.ends (sound : item.Sound) :
    item.written ≠ [] ∧ ∀ c ∈ item.written.getLast?, Text.isBlank c = false := by
  cases item with
  | bare text =>
      obtain ⟨filled, free⟩ := sound
      refine ⟨fun empty => filled (String.toList_eq_nil_iff.mp empty), fun c last => ?_⟩
      exact (free c (List.mem_of_getLast? last)).1
  | literal text =>
      refine ⟨by simp [written], fun c last => ?_⟩
      rw [written, List.getLast?_concat] at last
      cases last
      decide

theorem IsGap.stretch {gap : List Char} (isGap : IsGap gap) : Statement.Stretch gap :=
  stretch_of_inside fun c member =>
    ⟨(isGap.2 c member).2, not_blank_semicolon (isGap.2 c member).1⟩

theorem Spaced.stretch (spaced : Spaced items text) (sound : ∀ item ∈ items, item.Sound) :
    Statement.Stretch text := by
  induction spaced with
  | last item => exact (sound item List.mem_cons_self).stretch
  | next item isGap spaced ih =>
      obtain ⟨first, others⟩ := List.forall_mem_cons.mp sound
      exact first.stretch.append (isGap.stretch.append (ih others))

theorem Spaced.ends (spaced : Spaced items text) (sound : ∀ item ∈ items, item.Sound) :
    text ≠ [] ∧ ∀ c ∈ text.getLast?, Text.isBlank c = false := by
  induction spaced with
  | last item => exact (sound item List.mem_cons_self).ends
  | next item isGap spaced ih =>
      obtain ⟨filled, visible⟩ := ih (List.forall_mem_cons.mp sound).2
      refine ⟨by simp [filled], fun c last => visible c ?_⟩
      simpa [filled] using last

theorem Spaced.starts (spaced : Spaced (item :: items) text) :
    ∃ tail, text = item.written ++ tail := by
  cases spaced with
  | last item => exact ⟨[], by simp⟩
  | next item isGap spaced => exact ⟨_, rfl⟩

/-- What starts with a bare item that no comment starts with makes a statement. -/
theorem Spaced.whole {c : Char} {more : List Char} (spaced : Spaced items (c :: more))
    (sound : ∀ item ∈ items, item.Sound) (visible : Text.isBlank c = false)
    (starts : c ≠ '-' ∧ c ≠ ';' ∧ c ≠ Statement.mark) : Statement.Whole (c :: more) := by
  refine ⟨⟨c, more, rfl, visible, starts.1, starts.2.1, starts.2.2, ?_⟩,
    (spaced.ends sound).2⟩
  cases spaced.stretch sound with
  | plain _ stretch => exact stretch
  | literal => exact absurd rfl starts.2.2

end Lexeme

namespace Word

open Lexeme (IsBare IsGap)

variable {letters rest : List Char}

theorem inWord_letters (free : ∀ c ∈ letters, Text.isBlank c = false ∧ c ≠ Statement.mark)
    (collected : List Char) :
    inWord collected (letters ++ rest) = inWord (letters.reverse ++ collected) rest := by
  induction letters generalizing collected with
  | nil => rfl
  | cons c letters ih =>
      obtain ⟨⟨visible, quote⟩, others⟩ := List.forall_mem_cons.mp free
      rw [List.cons_append, inWord, if_neg (by simp [visible]), if_neg quote, ih others]
      simp

theorem inLiteral_closed (free : Statement.mark ∉ letters) (collected : List Char) :
    inLiteral collected (letters ++ Statement.mark :: rest) =
      (between rest).map (.literal (String.ofList (collected.reverse ++ letters)) :: ·) := by
  induction letters generalizing collected with
  | nil => simp [inLiteral]
  | cons c letters ih =>
      have quote : c ≠ Statement.mark := fun same => free (same ▸ List.mem_cons_self)
      have others : Statement.mark ∉ letters := fun member => free (List.mem_cons_of_mem _ member)
      rw [List.cons_append, inLiteral, if_neg quote, ih others]
      simp

theorem between_gap {gap : List Char} (blank : ∀ c ∈ gap, Text.isBlank c = true) :
    between (gap ++ rest) = between rest := by
  induction gap with
  | nil => rfl
  | cons c gap ih =>
      obtain ⟨first, others⟩ := List.forall_mem_cons.mp blank
      rw [List.cons_append, between, if_pos first, ih others]

/-- An item at the end, or before white space, is one word. -/
theorem between_item {item : Lexeme} (sound : item.Sound)
    (ends : ∀ c ∈ rest.head?, Text.isBlank c = true) :
    between (item.written ++ rest) = (between rest).map (item.word :: ·) := by
  cases item with
  | bare text =>
      obtain ⟨filled, free⟩ := sound
      have visible : ∀ c ∈ text.toList, Text.isBlank c = false ∧ c ≠ Statement.mark :=
        fun c member => ⟨(free c member).1, (free c member).2.2⟩
      rcases letters : text.toList with _ | ⟨c, more⟩
      · exact absurd (String.toList_eq_nil_iff.mp letters) filled
      · rw [letters] at visible
        obtain ⟨⟨first, quote⟩, others⟩ := List.forall_mem_cons.mp visible
        rw [Lexeme.written, Lexeme.word, letters, List.cons_append, between, if_neg (by simp [first]),
          if_neg quote, inWord_letters others]
        -- the word goes on to the white space after it, or to the end
        cases rest with
        | nil => simp [inWord, between]
        | cons blank rest =>
            have white : Text.isBlank blank = true := ends blank rfl
            simp [inWord, between, white]
  | literal text =>
      have whole : Lexeme.written (.literal text) ++ rest =
          Statement.mark :: (text.toList ++ Statement.mark :: rest) := by
        simp [Lexeme.written]
      rw [whole, between, if_neg (by decide), if_pos rfl, inLiteral_closed sound]
      simp [Lexeme.word]

theorem between_spaced {items : List Lexeme} {text : List Char} (spaced : Lexeme.Spaced items text)
    (sound : ∀ item ∈ items, item.Sound) : between text = some (items.map Lexeme.word) := by
  induction spaced with
  | last item =>
      have read := @between_item [] item (sound item List.mem_cons_self) nofun
      rw [List.append_nil] at read
      exact read
  | @next item gap rest text isGap spaced ih =>
      obtain ⟨first, others⟩ := List.forall_mem_cons.mp sound
      obtain ⟨filled, blank⟩ := isGap
      obtain ⟨c, more, rfl⟩ := List.exists_cons_of_ne_nil filled
      have white : ∀ letter ∈ (c :: more ++ text).head?, Text.isBlank letter = true := by
        simpa using (blank c List.mem_cons_self).1
      rw [between_item first white, between_gap fun c member => (blank c member).1, ih others]
      rfl

end Word

end Rollout
