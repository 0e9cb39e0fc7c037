import Mathlib.Data.List.Forall2
import Rollout.Proofs.Glob
import Rollout.Proofs.Text

/-!
How a segment of a pattern is read, told apart from the reader. From left to right it is made of
alternations, wildcards and letters, in just one way; a name is accepted if it can be cut into
pieces, one for each of them.
-/

namespace Rollout.Glob

/-- An alternation stands at the beginning: text without braces between an opening brace and a
closing one. -/
def Opens (text : List Char) : Prop :=
  ∃ inside rest, text = '\x7b' :: (inside ++ '\x7d' :: rest) ∧ ∀ c ∈ inside, isBrace c = false

/-- The parts that a segment is made of. A brace that does not belong to an alternation is a letter
like all others. -/
inductive Spells : List Char → Glob → Prop where
  | nothing : Spells [] []
  | oneOf {choices : List (List Char)} {rest : List Char} {glob : Glob} (filled : choices ≠ [])
      (plain : ∀ choice ∈ choices, ',' ∉ choice ∧ ∀ c ∈ choice, isBrace c = false)
      (later : Spells rest glob) :
      Spells ('\x7b' :: ([','].intercalate choices ++ '\x7d' :: rest)) (.oneOf choices :: glob)
  | wildcard {c : Char} {rest : List Char} {glob : Glob} (mark : c = '?' ∨ c = '*')
      (later : Spells rest glob) : Spells (c :: rest) (.wildcard :: glob)
  | letter {c : Char} {rest : List Char} {glob : Glob} (unmarked : ¬ (c = '?' ∨ c = '*'))
      (unpaired : ¬ Opens (c :: rest)) (later : Spells rest glob) :
      Spells (c :: rest) (.letter c :: glob)

theorem choices_eq_some {text inside : List Char} {taken : Nat} :
    choices? text = some (inside, taken) ↔
      taken = inside.length + 1 ∧ (∀ c ∈ inside, isBrace c = false) ∧
        ∃ rest, text = inside ++ '\x7d' :: rest := by
  unfold choices?
  constructor
  · intro found
    dsimp only at found
    split at found
    · rename_i closed
      obtain ⟨rfl, rfl⟩ := Prod.mk.inj (Option.some.inj found)
      have cut : text.takeWhile (!isBrace ·) ++ text.dropWhile (!isBrace ·) = text :=
        List.takeWhile_append_dropWhile
      have behind : text.drop (text.takeWhile (!isBrace ·)).length =
          text.dropWhile (!isBrace ·) := by
        conv_lhs => arg 2; rw [← cut]
        exact List.drop_left
      rw [behind] at closed
      obtain ⟨rest, after⟩ := List.head?_eq_some_iff.mp closed
      refine ⟨rfl, fun c member => ?_, rest, by rw [← after, cut]⟩
      have plain := List.all_takeWhile (p := (!isBrace ·)) (l := text)
      simpa using List.all_eq_true.mp plain c member
    · cases found
  · rintro ⟨rfl, plain, rest, rfl⟩
    have whole : (inside ++ '\x7d' :: rest).takeWhile (!isBrace ·) = inside := by
      rw [List.takeWhile_append_of_pos (by simpa using plain)]
      exact List.append_nil inside
    dsimp only
    rw [whole, List.drop_left, List.head?_cons, if_pos rfl]

/-- To skip characters is to read what stands behind them. -/
theorem read_skip (skip : Nat) (text : List Char) : read skip text = read 0 (text.drop skip) := by
  induction text generalizing skip with
  | nil => cases skip <;> rfl
  | cons c rest ih =>
      cases skip with
      | zero => rfl
      | succ skip => exact ih skip

theorem read_oneOf {inside : List Char} (rest : List Char)
    (plain : ∀ c ∈ inside, isBrace c = false) :
    read 0 ('\x7b' :: (inside ++ '\x7d' :: rest)) =
      .oneOf (Text.pieces ',' inside) :: read 0 rest := by
  have found : choices? (inside ++ '\x7d' :: rest) = some (inside, inside.length + 1) :=
    choices_eq_some.mpr ⟨rfl, plain, rest, rfl⟩
  rw [read, if_pos rfl, found]
  dsimp only
  rw [read_skip, List.drop_append, List.drop_eq_nil_of_le (Nat.le_succ _)]
  simp

theorem read_wildcard {c : Char} (rest : List Char) (mark : c = '?' ∨ c = '*') :
    read 0 (c :: rest) = .wildcard :: read 0 rest := by
  have other : c ≠ '\x7b' := by
    rintro rfl
    exact absurd mark (by decide)
  rw [read, if_neg other, if_pos mark]

theorem read_letter {c : Char} {rest : List Char} (unmarked : ¬ (c = '?' ∨ c = '*'))
    (unpaired : ¬ Opens (c :: rest)) : read 0 (c :: rest) = .letter c :: read 0 rest := by
  rw [read]
  by_cases brace : c = '\x7b'
  · rw [if_pos brace]
    cases found : choices? rest with
    | none => rfl
    | some pair =>
        obtain ⟨-, plain, after, rfl⟩ := choices_eq_some.mp found
        exact absurd ⟨pair.1, after, by rw [brace], plain⟩ unpaired
  · rw [if_neg brace, if_neg unmarked]

/-- The reader finds parts that the segment is made of. -/
theorem spells_read (text : List Char) : Spells text (read 0 text) := by
  -- an alternation takes up several characters at once, so the induction is on the length
  induction length : text.length using Nat.strongRecOn generalizing text with
  | ind count ih =>
      subst length
      match text with
      | [] => exact .nothing
      | c :: rest =>
          by_cases opens : Opens (c :: rest)
          · obtain ⟨inside, after, same, plain⟩ := opens
            obtain ⟨rfl, rfl⟩ := List.cons.inj same
            have whole : [','].intercalate (Text.pieces ',' inside) = inside :=
              Text.intercalate_pieces inside
            rw [read_oneOf after plain]
            conv => arg 1; rw [← whole]
            refine .oneOf (Text.pieces_ne_nil inside) (fun choice member => ?_)
              (ih after.length (by simp; omega) after rfl)
            exact ⟨Text.not_mem_pieces member, fun d within =>
              plain d (Text.mem_of_mem_pieces member within)⟩
          · have later := ih rest.length (Nat.lt_succ_self _) rest rfl
            by_cases mark : c = '?' ∨ c = '*'
            · rw [read_wildcard rest mark]
              exact .wildcard mark later
            · rw [read_letter mark opens]
              exact .letter mark opens later

/-- There are no other parts that it is made of. -/
theorem Spells.eq_read {text : List Char} {glob : Glob} (spells : Spells text glob) :
    glob = read 0 text := by
  induction spells with
  | nothing => rfl
  | @oneOf choices rest glob filled plain later ih =>
      have free : ∀ choice ∈ choices, ',' ∉ choice := fun choice member => (plain choice member).1
      have braceless : ∀ c ∈ [','].intercalate choices, isBrace c = false := by
        intro c member
        rcases Text.mem_intercalate_letters member with comma | ⟨choice, within, letter⟩
        · rw [comma]
          rfl
        · exact (plain choice within).2 c letter
      rw [read_oneOf rest braceless, Text.pieces_intercalate filled free, ih]
  | wildcard mark later ih => rw [read_wildcard _ mark, ih]
  | letter unmarked unpaired later ih => rw [read_letter unmarked unpaired, ih]

/-- A name that parts match is cut into their pieces. -/
theorem matches_iff_pieces {glob : Glob} {name : List Char} :
    Matches glob name ↔
      ∃ pieces : List (List Char), name = pieces.flatten ∧ List.Forall₂ Part.Takes glob pieces := by
  induction glob generalizing name with
  | nil => simp [Matches]
  | cons part glob ih =>
      simp only [Matches, ih]
      constructor
      · rintro ⟨piece, _, rfl, takes, pieces, rfl, all⟩
        exact ⟨piece :: pieces, rfl, .cons takes all⟩
      · rintro ⟨_, rfl, all⟩
        cases all with
        | cons takes all => exact ⟨_, _, rfl, takes, _, rfl, all⟩

/-- A wildcard stands for one character at least, and a brace without its partner for itself. -/
example : (ofSegment "a\x7b*?.\x7bsql,\x7d").accepts "a\x7bxy." = true ∧
    (ofSegment "a\x7b*?.\x7bsql,\x7d").accepts "a\x7bx.sql" = false := by decide

end Rollout.Glob
