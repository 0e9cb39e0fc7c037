import Rollout.Statement

/-!
Cutting a text into statements gives back the statements that were joined, each with the line that
it starts on.
-/

namespace Rollout

namespace Text

variable {text : List Char}

/-- Nothing is trimmed from a text with no white space at its ends. -/
theorem trim_eq (starts : ∀ c ∈ text.head?, isBlank c = false)
    (ends : ∀ c ∈ text.getLast?, isBlank c = false) : trim text = text := by
  have same : ∀ {letters : List Char}, (∀ c ∈ letters.head?, isBlank c = false) →
      letters.dropWhile isBlank = letters := by
    intro letters free
    cases letters with
    | nil => rfl
    | cons c rest => simp [free c rfl]
  have reversed : text.reverse.dropWhile isBlank = text.reverse :=
    same (by rwa [List.head?_reverse])
  rw [trim, trimStart, same starts, trimEnd, reversed, List.reverse_reverse]

end Text

namespace Statement

/-- Text inside of a statement: literals are closed, and nothing outside of them ends it. -/
inductive Stretch : List Char → Prop where
  | nil : Stretch []
  | plain {c : Char} {rest : List Char} (inside : c ≠ '\n' ∧ c ≠ ';' ∧ c ≠ mark)
      (more : Stretch rest) : Stretch (c :: rest)
  | literal {inner rest : List Char} (free : mark ∉ inner) (more : Stretch rest) :
      Stretch (mark :: inner ++ mark :: rest)

/-- The text of a statement, without white space at its ends. It does not start with a literal, nor
as a comment does. -/
structure Whole (text : List Char) : Prop where
  starts : ∃ c rest, text = c :: rest ∧ Text.isBlank c = false ∧ c ≠ '-' ∧ c ≠ ';' ∧ c ≠ mark ∧
    Stretch rest
  ends : ∀ c ∈ text.getLast?, Text.isBlank c = false

/-- The texts of statements one after another, from the given line on. Between two of them stand
line feeds and semicolons; a statement knows the line that it starts on. -/
inductive Joined : Nat → List Statement → List Char → Prop where
  | nothing (line : Nat) : Joined line [] []
  | last (statement : Statement) : Joined statement.line [statement] statement.text.toList
  | next (statement : Statement) {separator rest : List Char} {more : List Statement}
      (filled : separator ≠ []) (separates : ∀ c ∈ separator, c = '\n' ∨ c = ';')
      (joined : Joined
        (statement.line + statement.text.toList.count '\n' + separator.count '\n') more rest) :
      Joined statement.line (statement :: more) (statement.text.toList ++ separator ++ rest)

theorem Stretch.append {first second : List Char} (stretch : Stretch first)
    (other : Stretch second) : Stretch (first ++ second) := by
  induction stretch with
  | nil => exact other
  | plain inside _ ih => exact .plain inside ih
  | literal free _ ih =>
      have whole := Stretch.literal free ih
      simpa using whole

theorem literal_closed {inner : List Char} (free : mark ∉ inner) (opened line start : Nat)
    (collected rest : List Char) :
    literal opened line start collected (inner ++ mark :: rest) =
      outside (line + inner.count '\n') start (mark :: (inner.reverse ++ collected)) rest := by
  induction inner generalizing line collected with
  | nil => simp [literal]
  | cons c inner ih =>
      have other : c ≠ mark := fun same => free (same ▸ List.mem_cons_self)
      have later : mark ∉ inner := fun member => free (List.mem_cons_of_mem _ member)
      rw [List.cons_append, literal, if_neg other, ih later, ih later]
      by_cases feed : c = '\n'
      · subst feed
        have lines : line + 1 + inner.count '\n' = line + ('\n' :: inner).count '\n' := by
          rw [List.count_cons_self]
          omega
        simp [lines]
      · simp [feed]

section Begun

variable {collected : List Char} (begun : Text.allBlank collected = false)

include begun

theorem allBlank_append (more : List Char) : Text.allBlank (more ++ collected) = false := by
  simp only [Text.allBlank, List.all_append, Bool.and_eq_false_iff]
  exact .inr begun

theorem outside_plain (line start : Nat) {c : Char} (inside : c ≠ '\n' ∧ c ≠ ';' ∧ c ≠ mark)
    (rest : List Char) :
    outside line start collected (c :: rest) = outside line start (c :: collected) rest := by
  obtain ⟨feed, semicolon, quote⟩ := inside
  rw [outside, if_neg (by simp [begun]), if_neg feed, if_neg semicolon, if_neg quote, startLine,
    begun]
  rfl

theorem outside_literal {inner : List Char} (free : mark ∉ inner) (line start : Nat)
    (rest : List Char) :
    outside line start collected (mark :: (inner ++ mark :: rest)) =
      outside (line + inner.count '\n') start (mark :: (inner.reverse ++ mark :: collected))
        rest := by
  rw [outside, if_neg (by simp [begun]), if_neg (by decide), if_neg (by decide), if_pos rfl,
    startLine, begun, literal_closed free]
  rfl

/-- Once a statement has begun, a stretch of it is collected whole. -/
theorem outside_stretch {text : List Char} (stretch : Stretch text) (line start : Nat)
    (rest : List Char) :
    outside line start collected (text ++ rest) =
      outside (line + text.count '\n') start (text.reverse ++ collected) rest := by
  induction stretch generalizing line collected with
  | nil => rfl
  | @plain c text inside more ih =>
      have still : Text.allBlank (c :: collected) = false := allBlank_append begun [c]
      rw [List.cons_append, outside_plain begun line start inside, ih still,
        List.count_cons_of_ne inside.1]
      simp
  | @literal inner text free more ih =>
      have one := outside_literal begun free line start (text ++ rest)
      have lines : (mark :: inner ++ mark :: text).count '\n' =
          inner.count '\n' + text.count '\n' := by
        simp [mark]
      have others := ih (allBlank_append begun (mark :: (inner.reverse ++ [mark])))
        (line + inner.count '\n')
      have whole : mark :: inner ++ mark :: text ++ rest =
        mark :: (inner ++ mark :: (text ++ rest)) := by simp
      rw [whole, one, lines, ← Nat.add_assoc]
      simpa using others

end Begun

theorem outside_whole {text : List Char} (whole : Whole text) (line : Nat) (rest : List Char) :
    outside line line [] (text ++ rest) =
      outside (line + text.count '\n') line text.reverse rest := by
  obtain ⟨c, more, rfl, visible, hyphen, semicolon, quote, stretch⟩ := whole.starts
  have feed : c ≠ '\n' := by
    rintro rfl
    exact absurd visible (by decide)
  have begun : Text.allBlank [c] = false := by simp [Text.allBlank, visible]
  rw [List.cons_append, outside, if_neg (by simp [hyphen]), if_neg feed, if_neg semicolon,
    if_neg quote, startLine, ite_self, outside_stretch begun stretch,
    List.count_cons_of_ne feed]
  simp

theorem close_whole {text : List Char} (whole : Whole text) (line : Nat) :
    close line text.reverse = [⟨String.ofList text, line⟩] := by
  obtain ⟨c, rest, rfl, visible, -⟩ := whole.starts
  have trimmed : Text.trim (c :: rest) = c :: rest :=
    Text.trim_eq (by simpa using visible) whole.ends
  simp [close, trimmed]

/-- Where a statement ends, it counts if there is anything in it. -/
theorem outside_end {c : Char} (ends : c = '\n' ∨ c = ';') (line start : Nat)
    (collected rest : List Char) :
    outside line start collected (c :: rest) =
      (outside (line + [c].count '\n') (line + [c].count '\n') [] rest).map
        (close start collected ++ ·) := by
  rcases ends with rfl | rfl <;> rw [outside, if_neg (by simp)]
  · rfl
  · rfl

theorem outside_separator {separator : List Char} (separates : ∀ c ∈ separator, c = '\n' ∨ c = ';')
    (line : Nat) (rest : List Char) :
    outside line line [] (separator ++ rest) =
      outside (line + separator.count '\n') (line + separator.count '\n') [] rest := by
  induction separator generalizing line with
  | nil => rfl
  | cons c separator ih =>
      obtain ⟨ends, others⟩ := List.forall_mem_cons.mp separates
      have nothing (read : Except ParseError (List Statement)) :
          read.map (close line [] ++ ·) = read := by
        cases read <;> rfl
      have lines : line + [c].count '\n' + separator.count '\n' =
          line + (c :: separator).count '\n' := by
        rw [Nat.add_assoc, ← List.count_append, List.singleton_append]
      rw [List.cons_append, outside_end ends, nothing, ih others, lines]

/-- A statement stands where its line says. -/
theorem Joined.placed {line : Nat} {statements : List Statement} {text : List Char}
    (joined : Joined line statements text) :
    ∀ statement ∈ statements, ∃ before after,
      text = before ++ (statement.text.toList ++ after) ∧
        statement.line = line + before.count '\n' := by
  induction joined with
  | nothing line => nofun
  | last statement =>
      intro one member
      obtain rfl := List.mem_singleton.mp member
      exact ⟨[], [], by simp, rfl⟩
  | @next statement separator rest more filled separates joined ih =>
      intro one member
      rcases List.mem_cons.mp member with rfl | later
      · exact ⟨[], separator ++ rest, by simp, rfl⟩
      · obtain ⟨before, after, rfl, line⟩ := ih one later
        refine ⟨statement.text.toList ++ separator ++ before, after, by simp, ?_⟩
        rw [line, List.count_append, List.count_append]
        omega

/-- Statements that have been joined are told apart again. -/
theorem outside_joined {line : Nat} {statements : List Statement} {text : List Char}
    (joined : Joined line statements text)
    (whole : ∀ statement ∈ statements, Whole statement.text.toList) :
    outside line line [] text = .ok statements := by
  induction joined with
  | nothing line => rfl
  | last statement =>
      have first := whole statement List.mem_cons_self
      have read := outside_whole first statement.line []
      rw [List.append_nil] at read
      rw [read, outside, close_whole first, String.ofList_toList]
  | @next statement separator rest more filled separates joined ih =>
      obtain ⟨first, others⟩ := List.forall_mem_cons.mp whole
      obtain ⟨c, separator, rfl⟩ := List.exists_cons_of_ne_nil filled
      obtain ⟨ends, separates⟩ := List.forall_mem_cons.mp separates
      -- the first separator ends the statement, and those after it find nothing to end
      rw [List.append_assoc, outside_whole first, List.cons_append, outside_end ends,
        outside_separator separates, close_whole first, String.ofList_toList]
      rw [← List.singleton_append, List.count_append, ← Nat.add_assoc] at ih
      rw [ih others]
      rfl

end Statement

end Rollout
