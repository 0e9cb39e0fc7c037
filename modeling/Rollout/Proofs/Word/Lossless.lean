import Rollout.Proofs.Statement.Literals
import Rollout.Proofs.Text
import Rollout.Proofs.Word

/-!
Telling the words of a text apart loses nothing but white space. A text has its words in one way
only; what stands in literals, and every visible character outside of them, is found again in the
words; and the words, written one after another, are told apart as the same words.
-/

namespace Rollout

namespace Text

variable {α : Type} {separator : Char}

/-- Every second one of a list, from the first or from the second on. -/
def everySecond (fromFirst : Bool) : List α → List α
  | [] => []
  | first :: rest =>
      if fromFirst then first :: everySecond false rest else everySecond true rest

/-- Letters other than the separator belong to the stretch that they stand before. -/
theorem pieces_letters {letters : List Char} (free : separator ∉ letters) (text : List Char) :
    ∃ piece more, pieces separator text = piece :: more ∧
      pieces separator (letters ++ text) = (letters ++ piece) :: more := by
  have filled : pieces separator text ≠ [] := pieces_ne_nil text
  obtain ⟨piece, more, cut⟩ := List.exists_cons_of_ne_nil filled
  refine ⟨piece, more, cut, ?_⟩
  induction letters with
  | nil => exact cut
  | cons c letters ih =>
      obtain ⟨first, others⟩ := List.ne_and_not_mem_of_not_mem_cons free
      rw [List.cons_append, pieces, if_neg first.symm, ih others]
      rfl

end Text

namespace Word

open Text (isBlank everySecond pieces)
open Statement (mark)

/-- A text and the words in it. White space may stand before and behind each; a word that is not
literal ends with the text, or before white space or a literal. -/
inductive Spread : List Char → List Word → Prop where
  | nothing : Spread [] []
  | blank {c : Char} {rest : List Char} {words : List Word} (blank : isBlank c = true)
      (more : Spread rest words) : Spread (c :: rest) words
  | literal {inner rest : List Char} {words : List Word} (free : mark ∉ inner)
      (more : Spread rest words) :
      Spread (mark :: inner ++ mark :: rest) (.literal (String.ofList inner) :: words)
  | bare {letters rest : List Char} {words : List Word} (filled : letters ≠ [])
      (free : ∀ c ∈ letters, isBlank c = false ∧ c ≠ mark)
      (ends : ∀ c ∈ rest.head?, isBlank c = true ∨ c = mark) (more : Spread rest words) :
      Spread (letters ++ rest) (classify letters :: words)

variable {letters rest text : List Char} {words : List Word}

/-- The class of a word keeps its letters. -/
theorem written_classify (letters : List Char) : (classify letters).written.toList = letters := by
  unfold classify
  dsimp only
  split
  · simp [written, toString]
  · split
    · simp [written, Word.text]
    · split <;> simp [written, Word.text]

theorem isLiteral_classify (letters : List Char) : (classify letters).isLiteral = false := by
  unfold classify
  dsimp only
  split
  · rfl
  · split
    · rfl
    · split <;> rfl

theorem written_literal (inner : List Char) :
    (literal (String.ofList inner)).written.toList = mark :: inner ++ [mark] := by
  simp [written, toString, mark]

/-- What a word is read from when some of it has been collected. -/
def InWord (collected text : List Char) (words : List Word) : Prop :=
  ∃ letters rest more, text = letters ++ rest ∧
    (∀ c ∈ letters, isBlank c = false ∧ c ≠ mark) ∧
    (∀ c ∈ rest.head?, isBlank c = true ∨ c = mark) ∧ Spread rest more ∧
    words = classify (collected.reverse ++ letters) :: more

def InLiteral (collected text : List Char) (words : List Word) : Prop :=
  ∃ inner rest more, text = inner ++ mark :: rest ∧ mark ∉ inner ∧ Spread rest more ∧
    words = literal (String.ofList (collected.reverse ++ inner)) :: more

/-- A word that ends here is what has been collected of it. -/
theorem inWord_ended {collected : List Char} (ends : ∀ c ∈ text.head?, isBlank c = true ∨ c = mark)
    (spread : Spread text words) : InWord collected text (classify collected.reverse :: words) :=
  ⟨[], text, words, rfl, List.forall_mem_nil _, ends, spread, by rw [List.append_nil]⟩

theorem spread_word {c : Char} (visible : isBlank c = false) (plain : c ≠ mark)
    (inWord : InWord [c] text words) : Spread (c :: text) words := by
  obtain ⟨letters, rest, more, rfl, free, ends, spread, rfl⟩ := inWord
  exact .bare (List.cons_ne_nil c letters) (List.forall_mem_cons.mpr ⟨⟨visible, plain⟩, free⟩)
    ends spread

theorem spread_literal (inLiteral : InLiteral [] text words) : Spread (mark :: text) words := by
  obtain ⟨inner, rest, more, rfl, free, spread, rfl⟩ := inLiteral
  exact .literal free spread

/-- Each of the three readers finds what it is named for. -/
theorem spread_of_read (text : List Char) :
    (∀ words, between text = some words → Spread text words) ∧
    (∀ collected words, inWord collected text = some words → InWord collected text words) ∧
    ∀ collected words, inLiteral collected text = some words →
      InLiteral collected text words := by
  induction text with
  | nil =>
      refine ⟨?_, ?_, ?_⟩
      · rintro _ ⟨⟩
        exact .nothing
      · rintro collected _ ⟨⟩
        exact inWord_ended (by simp) .nothing
      · intro collected words read
        cases read
  | cons c rest ih =>
      obtain ⟨spaces, word, inside⟩ := ih
      refine ⟨fun words read => ?_, fun collected words read => ?_, fun collected words read => ?_⟩
      · unfold between at read
        split at read
        · rename_i blank
          exact .blank blank (spaces words read)
        · rename_i visible
          split at read
          · rename_i quote
            exact quote ▸ spread_literal (inside [] words read)
          · rename_i plain
            exact spread_word (by simpa using visible) plain (word [c] words read)
      · unfold inWord at read
        -- the word ends here, before white space or a literal, or goes on
        split at read
        · rename_i blank
          obtain ⟨more, later, rfl⟩ := Option.map_eq_some_iff.mp read
          refine inWord_ended ?_ (.blank blank (spaces more later))
          rintro _ ⟨⟩
          exact .inl blank
        · rename_i visible
          split at read
          · rename_i quote
            obtain ⟨more, later, rfl⟩ := Option.map_eq_some_iff.mp read
            refine inWord_ended ?_ (quote ▸ spread_literal (inside [] more later))
            rintro _ ⟨⟩
            exact .inr quote
          · rename_i plain
            obtain ⟨letters, after, more, rfl, free, ends, spread, rfl⟩ :=
              word (c :: collected) words read
            refine ⟨c :: letters, after, more, rfl, ?_, ends, spread, by simp⟩
            exact List.forall_mem_cons.mpr ⟨⟨by simpa using visible, plain⟩, free⟩
      · unfold inLiteral at read
        split at read
        · rename_i quote
          obtain ⟨more, later, rfl⟩ := Option.map_eq_some_iff.mp read
          exact ⟨[], rest, more, quote ▸ rfl, List.not_mem_nil, spaces more later,
            by rw [List.append_nil]⟩
        · rename_i plain
          obtain ⟨inner, after, more, rfl, free, spread, rfl⟩ := inside (c :: collected) words read
          exact ⟨c :: inner, after, more, rfl, by simp [Ne.symm plain, free], spread, by simp⟩

theorem Spread.read (spread : Spread text words) : between text = some words := by
  induction spread with
  | nothing => rfl
  | blank blank _ ih => rw [between, if_pos blank, ih]
  | @literal inner rest words free _ ih =>
      have whole : mark :: inner ++ mark :: rest = mark :: (inner ++ mark :: rest) := rfl
      rw [whole, between, if_neg (by decide), if_pos rfl, inLiteral_closed free, ih]
      rfl
  | @bare letters rest words filled free ends _ ih =>
      obtain ⟨c, letters, rfl⟩ := List.exists_cons_of_ne_nil filled
      obtain ⟨⟨visible, plain⟩, others⟩ := List.forall_mem_cons.mp free
      rw [List.cons_append, between, if_neg (by simp [visible]), if_neg plain,
        inWord_letters others]
      -- what ends the word is read as it is between words
      have same : inWord (letters.reverse ++ [c]) rest =
          (between rest).map (classify (letters.reverse ++ [c]).reverse :: ·) := by
        cases rest with
        | nil => rfl
        | cons d rest =>
            rw [inWord, between]
            split
            · rfl
            · rename_i seen
              have quote : d = mark := (ends d rfl).resolve_left seen
              rw [if_pos quote, if_pos quote]
      rw [same, ih]
      simp

theorem between_eq_some_iff : between text = some words ↔ Spread text words :=
  ⟨(spread_of_read text).1 words, Spread.read⟩

/-- What is written of words behind the first: a blank stands before each. -/
def writtenBehind (words : List Word) : List Char :=
  words.flatMap fun word => ' ' :: word.written.toList

theorem joined_cons (word : Word) (words : List Word) :
    (" ".intercalate ((word :: words).map written)).toList =
      word.written.toList ++ writtenBehind words := by
  induction words generalizing word with
  | nil => simp [writtenBehind]
  | cons next words ih =>
      rw [List.map_cons, List.map_cons, String.intercalate_cons_cons, String.toList_append,
        String.toList_append, ← List.map_cons, ih, List.append_assoc]
      rfl

/-- Words that are written one after another, each behind a blank, can be told apart. -/
theorem Spread.behind (spread : Spread text words) : Spread (writtenBehind words) words := by
  induction spread with
  | nothing => exact .nothing
  | blank _ _ ih => exact ih
  | @literal inner rest words free _ ih =>
      have whole : writtenBehind (Word.literal (String.ofList inner) :: words) =
          ' ' :: (mark :: inner ++ mark :: writtenBehind words) := by
        simp [writtenBehind, written_literal]
      rw [whole]
      exact .blank (by decide) (.literal free ih)
  | @bare letters rest words filled free _ _ ih =>
      have whole : writtenBehind (classify letters :: words) =
          ' ' :: (letters ++ writtenBehind words) := by
        simp [writtenBehind, written_classify]
      rw [whole]
      refine .blank (by decide) (.bare filled free (fun c first => .inl ?_) ih)
      cases words with
      | nil => cases first
      | cons next words =>
          cases first
          decide

theorem Spread.joined (spread : Spread text words) :
    between (" ".intercalate (words.map written)).toList = some words := by
  have behind := spread.behind.read
  cases words with
  | nil => rfl
  | cons word words =>
      have space : isBlank ' ' = true := by decide
      rw [joined_cons]
      rwa [writtenBehind, List.flatMap_cons, List.cons_append, between, if_pos space] at behind

/-- The stretches of a text that are not in literals: grave accents stand between them and those
that are. -/
def outsideLiterals (text : List Char) : List (List Char) := everySecond true (pieces mark text)

def insideLiterals (text : List Char) : List (List Char) := everySecond false (pieces mark text)

def bareLetters (words : List Word) : List Char :=
  (words.filter fun word => !word.isLiteral).flatMap fun word => word.written.toList

def literalTexts (words : List Word) : List String :=
  (words.filter isLiteral).map Word.text

theorem stretches_letters (plain : mark ∉ letters) (text : List Char) :
    (outsideLiterals (letters ++ text)).flatten = letters ++ (outsideLiterals text).flatten ∧
      insideLiterals (letters ++ text) = insideLiterals text := by
  obtain ⟨piece, more, cut, longer⟩ := Text.pieces_letters plain text
  simp [outsideLiterals, insideLiterals, cut, longer, everySecond]

theorem stretches_literal (free : mark ∉ letters) (text : List Char) :
    outsideLiterals (mark :: letters ++ mark :: text) = [] :: outsideLiterals text ∧
      insideLiterals (mark :: letters ++ mark :: text) = letters :: insideLiterals text := by
  have cut : pieces mark (mark :: letters ++ mark :: text) = [] :: letters :: pieces mark text := by
    rw [Text.pieces_append, pieces, if_pos rfl, Text.pieces_of_free free]
    rfl
  unfold outsideLiterals insideLiterals
  rw [cut]
  exact ⟨rfl, rfl⟩

/-- The visible letters of a text outside of literals are those of its words, and what stands in
its literals are its literal words. -/
theorem Spread.keeps (spread : Spread text words) :
    bareLetters words = (outsideLiterals text).flatten.filter (fun c => !isBlank c) ∧
      literalTexts words = (insideLiterals text).map String.ofList := by
  induction spread with
  | nothing => exact ⟨rfl, rfl⟩
  | @blank c rest words blank _ ih =>
      have plain : mark ∉ [c] := by
        simpa using fun same : mark = c => absurd (same ▸ blank) (by decide)
      obtain ⟨outside, inside⟩ := stretches_letters plain rest
      rw [List.singleton_append] at outside inside
      rw [outside, inside, ← ih.2, ih.1]
      simp [blank]
  | @literal inner rest words free _ ih =>
      obtain ⟨outside, inside⟩ := stretches_literal free rest
      rw [outside, inside, List.map_cons, ← ih.2, List.flatten_cons, List.nil_append, ← ih.1]
      exact ⟨rfl, rfl⟩
  | @bare letters rest words filled free _ _ ih =>
      obtain ⟨outside, inside⟩ := stretches_letters (fun within => (free mark within).2 rfl) rest
      have visible : letters.filter (fun c => !isBlank c) = letters :=
        List.filter_eq_self.mpr fun c within => by simp [(free c within).1]
      rw [outside, inside, ← ih.2, List.filter_append, visible, ← ih.1]
      simp [bareLetters, literalTexts, isLiteral_classify, written_classify]

end Word

/-- Words are told of a text if and only if its grave accents are paired. There is one way to tell
them; it keeps all that stands in literals and all that is visible outside of them, and the words,
written out, are told apart again. -/
theorem Word.ofText_lossless (text : String) (line : Nat) :
    match Word.ofText text line with
    | .ok words =>
        Even (text.toList.count Statement.mark) ∧
        (∀ others, Spread text.toList others ↔ others = words) ∧
        bareLetters words =
          (outsideLiterals text.toList).flatten.filter (fun c => !Text.isBlank c) ∧
        literalTexts words = (insideLiterals text.toList).map String.ofList ∧
        ∀ other, Word.ofText (" ".intercalate (words.map written)) other = .ok words
    | .error error =>
        Odd (text.toList.count Statement.mark) ∧ error = .unterminatedLiteral line := by
  have paired := (letters_isSome text.toList).1
  unfold Word.ofText
  cases read : between text.toList with
  | none =>
      rw [read] at paired
      exact ⟨Nat.not_even_iff_odd.mp fun even => (nomatch paired.mpr even), rfl⟩
  | some words =>
      have spread : Spread text.toList words := between_eq_some_iff.mp read
      rw [read] at paired
      refine ⟨paired.mp rfl, fun others => ?_, spread.keeps.1, spread.keeps.2, fun other => ?_⟩
      · rw [← between_eq_some_iff, read, Option.some.injEq, eq_comm]
      · rw [spread.joined]

example : Word.ofText " sql  `a b`#main " 1 =
    .ok [.plain "sql", .literal "a b", .ref "main"] := by decide

end Rollout
