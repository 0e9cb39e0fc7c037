import Rollout.Text.Position
import Mathlib.Data.List.DropRight
import Mathlib.Data.List.Induction
import Mathlib.Data.Prod.Lex
import Mathlib.Data.String.Basic
import Mathlib.Order.Bounds.Defs

/-!
Places and the offsets they stand for. The place of an offset is that of the last boundary between
characters which the offset has reached; further boundaries have further places, so a place tells
its offset, and the places in a text that is put together come from those in its parts.
-/

namespace Rollout.Text

/-- An offset, in bytes, that lies neither within a character of the text nor behind its end. -/
def IsBoundary (text : String) (offset : Nat) : Prop :=
  (⟨offset⟩ : String.Pos.Raw).IsValid text

theorem isBoundary_iff {text : String} {offset : Nat} :
    IsBoundary text offset ↔
      ∃ before after, text = before ++ after ∧ before.utf8ByteSize = offset := by
  unfold IsBoundary
  rw [String.Pos.Raw.isValid_iff_exists_append]
  simp [String.Pos.Raw.ext_iff, eq_comm]

/-- The characters behind the last line feed. -/
def lastLine (text : List Char) : List Char := text.rtakeWhile (· != '\n')

theorem lastLine_concat (text : List Char) (c : Char) :
    lastLine (text ++ [c]) = if c = '\n' then [] else lastLine text ++ [c] := by
  by_cases feed : c = '\n' <;> simp [lastLine, feed]

namespace Position

/-- The place behind all of the characters. -/
def past (place : Position) (text : List Char) : Position := text.foldl advance place

/-- Places are in order by line, and on one line by column. -/
def key (place : Position) : Nat ×ₗ Nat := toLex (place.line, place.column)

/-- The bytes from one place in a text to another. -/
def bytesTo (target place : Position) : List Char → Nat
  | [] => 0
  | c :: rest =>
      if place = target then 0 else c.utf8Size + bytesTo target (place.advance c) rest

/-- A place, read on from where another text ends. Only columns of the first line move. -/
def behind (place start : Position) : Position :=
  ⟨start.line + place.line - 1,
    if place.line = 1 then place.column + (start.column - 1) else place.column⟩

variable {place : Position} {text before rest : List Char} {bytes : Nat}

theorem past_concat (place : Position) (text : List Char) (c : Char) :
    place.past (text ++ [c]) = (place.past text).advance c := by
  simp [past]

theorem past_eq (place : Position) (text : List Char) :
    place.past text = ⟨place.line + text.count '\n',
      (if '\n' ∈ text then 1 else place.column) + (lastLine text).length⟩ := by
  induction text using List.reverseRecOn with
  | nil => simp [past, lastLine]
  | append_singleton text c ih =>
      rw [past_concat, ih, lastLine_concat, advance]
      by_cases feed : c = '\n'
      · simp [feed, Nat.add_assoc]
      · simp [feed, Ne.symm feed, Nat.add_assoc]

/-- The place of the end of a text, counted from the start. -/
theorem past_start (text : List Char) :
    past {} text = ⟨1 + text.count '\n', 1 + (lastLine text).length⟩ := by
  simp [past_eq]

theorem past_behind (start : List Char) (text : List Char) :
    (past {} start).past text = (past {} text).behind (past {} start) := by
  have feeds : text.count '\n' = 0 ↔ '\n' ∉ text := List.count_eq_zero
  rw [past_eq, past_eq {} text, past_start start, behind]
  by_cases within : '\n' ∈ text
  · have some : text.count '\n' ≠ 0 := fun none => feeds.mp none within
    simp [within, some]
    omega
  · have none : text.count '\n' = 0 := feeds.mpr within
    simp [within, none]
    omega

theorem after_append (place : Position) (before rest : List Char)
    (fits : String.utf8Len before ≤ bytes) :
    place.after bytes (before ++ rest) =
      (place.past before).after (bytes - String.utf8Len before) rest := by
  induction before generalizing place bytes with
  | nil => simp [past]
  | cons c before ih =>
      rw [String.utf8Len_cons] at fits
      rw [List.cons_append, after, if_pos (by omega), ih _ (by omega), String.utf8Len_cons,
        Nat.sub_sub, Nat.add_comm c.utf8Size]
      rfl

theorem after_zero (place : Position) (rest : List Char) : place.after 0 rest = place := by
  cases rest with
  | nil => rfl
  | cons c rest =>
      have filled : 0 < c.utf8Size := c.utf8Size_pos
      rw [after, if_neg (by omega)]

/-- The characters that end within a number of bytes, and those that do not. -/
theorem exists_reached (bytes : Nat) (text : List Char) :
    ∃ before rest, text = before ++ rest ∧ String.utf8Len before ≤ bytes ∧
      (∀ c ∈ rest.head?, bytes < String.utf8Len before + c.utf8Size) ∧
      ∀ place : Position, place.after bytes text = place.past before := by
  induction text generalizing bytes with
  | nil => exact ⟨[], [], rfl, Nat.zero_le _, nofun, fun _ => rfl⟩
  | cons c text ih =>
      by_cases fits : c.utf8Size ≤ bytes
      · obtain ⟨before, rest, rfl, within, stops, reached⟩ := ih (bytes - c.utf8Size)
        refine ⟨c :: before, rest, rfl, ?_, fun d first => ?_, fun place => ?_⟩
        · rw [String.utf8Len_cons]
          omega
        · have beyond := stops d first
          rw [String.utf8Len_cons]
          omega
        · rw [after, if_pos fits, reached]
          rfl
      · refine ⟨[], c :: text, rfl, Nat.zero_le _, ?_, fun place => ?_⟩
        · rintro _ ⟨⟩
          simpa using fits
        · rw [after, if_neg fits]
          rfl

/-- No boundary that the bytes reach is behind the last character that they hold. -/
theorem le_of_stops {other more : List Char} (same : before ++ rest = other ++ more)
    (stops : ∀ c ∈ rest.head?, bytes < String.utf8Len before + c.utf8Size)
    (within : String.utf8Len other ≤ bytes) : String.utf8Len other ≤ String.utf8Len before := by
  rcases List.append_eq_append_iff.mp same with ⟨between, rfl, rfl⟩ | ⟨between, rfl, -⟩
  · cases between with
    | nil => simp
    | cons c between =>
        have beyond := stops c rfl
        rw [String.utf8Len_append, String.utf8Len_cons] at within
        omega
  · simp

theorem key_advance (place : Position) (c : Char) : place.key < (place.advance c).key := by
  unfold key advance
  rw [Prod.Lex.toLex_lt_toLex]
  by_cases feed : c = '\n' <;> simp [feed]

theorem key_past_le (place : Position) (text : List Char) : place.key ≤ (place.past text).key := by
  induction text generalizing place with
  | nil => exact le_refl _
  | cons c text ih => exact (key_advance place c).le.trans (ih _)

theorem key_past_lt (place : Position) (filled : text ≠ []) :
    place.key < (place.past text).key := by
  obtain ⟨c, text, rfl⟩ := List.exists_cons_of_ne_nil filled
  exact (key_advance place c).trans_le (key_past_le _ text)

/-- Every place on the way is before the last one, so the way there is found again. -/
theorem bytesTo_past (place : Position) (before rest : List Char) :
    bytesTo (place.past before) place (before ++ rest) = String.utf8Len before := by
  induction before generalizing place with
  | nil =>
      cases rest with
      | nil => rfl
      | cons c rest => exact if_pos rfl
  | cons c before ih =>
      have further : place ≠ place.past (c :: before) := by
        intro same
        have later := key_past_lt place (List.cons_ne_nil c before)
        rw [← same] at later
        exact lt_irrefl _ later
      rw [List.cons_append, bytesTo, if_neg further, String.utf8Len_cons, Nat.add_comm]
      exact congrArg (· + c.utf8Size) (ih (place.advance c))

end Position

open Position

/-- The offset that a place in the text stands for. -/
def offsetOf (text : String) (place : Position) : Nat := bytesTo place {} text.toList

theorem utf8Len_toList (text : String) : String.utf8Len text.toList = text.utf8ByteSize := by
  rw [← String.utf8ByteSize_ofList, String.ofList_toList]

theorem position_append (before after : String) (offset : Nat) :
    position (before ++ after) (before.utf8ByteSize + offset) =
      (past {} before.toList).after offset after.toList := by
  rw [position, String.toList_append, after_append _ _ _ (by rw [utf8Len_toList]; omega),
    utf8Len_toList, Nat.add_sub_cancel_left]

theorem position_boundary (before after : String) :
    position (before ++ after) before.utf8ByteSize = past {} before.toList := by
  have whole := position_append before after 0
  rwa [after_zero, Nat.add_zero] at whole

theorem position_end (text : String) :
    position text text.utf8ByteSize = past {} text.toList := by
  have whole := position_boundary text ""
  rwa [String.append_empty] at whole

/-- An offset has the place of the last boundary that it has reached. -/
theorem exists_boundary (text : String) (offset : Nat) :
    ∃ before after, text = before ++ after ∧
      IsGreatest {b | IsBoundary text b ∧ b ≤ min offset text.utf8ByteSize} before.utf8ByteSize ∧
      position text offset = past {} before.toList := by
  obtain ⟨before, rest, letters, within, stops, reached⟩ := exists_reached offset text.toList
  have whole : text = String.ofList before ++ String.ofList rest := by
    rw [← String.ofList_append, ← letters, String.ofList_toList]
  have size : (String.ofList before).utf8ByteSize = String.utf8Len before :=
    String.utf8ByteSize_ofList before
  refine ⟨String.ofList before, String.ofList rest, whole, ⟨⟨?_, ?_⟩, ?_⟩, ?_⟩
  · exact isBoundary_iff.mpr ⟨_, _, whole, rfl⟩
  · have all := congrArg String.utf8ByteSize whole
    rw [String.utf8ByteSize_append] at all
    omega
  · rintro b ⟨boundary, reach⟩
    obtain ⟨other, more, cut, rfl⟩ := isBoundary_iff.mp boundary
    have same : before ++ rest = other.toList ++ more.toList := by
      rw [← letters, cut, String.toList_append]
    have least := le_of_stops same stops (by rw [utf8Len_toList]; omega)
    rwa [utf8Len_toList, ← size] at least
  · rw [String.toList_ofList]
    exact reached {}

theorem position_strictMonoOn (text : String) :
    StrictMonoOn (fun b => (position text b).key) {b | IsBoundary text b} := by
  intro first boundary second further less
  obtain ⟨before, after, whole, rfl⟩ := isBoundary_iff.mp boundary
  obtain ⟨other, more, cut, rfl⟩ := isBoundary_iff.mp further
  have same : before.toList ++ after.toList = other.toList ++ more.toList := by
    rw [← String.toList_append, ← whole, cut, String.toList_append]
  have shorter : String.utf8Len before.toList < String.utf8Len other.toList := by
    rwa [utf8Len_toList, utf8Len_toList]
  -- the further boundary has more of the text before it
  obtain ⟨between, longer, filled⟩ :
      ∃ between, other.toList = before.toList ++ between ∧ between ≠ [] := by
    rcases List.append_eq_append_iff.mp same with ⟨between, longer, -⟩ | ⟨between, longer, -⟩
    · refine ⟨between, longer, ?_⟩
      rintro rfl
      rw [longer, List.append_nil] at shorter
      exact lt_irrefl _ shorter
    · rw [longer, String.utf8Len_append] at shorter
      omega
  have one : position text before.utf8ByteSize = past {} before.toList := by
    rw [whole, position_boundary]
  have two : position text other.utf8ByteSize = (past {} before.toList).past between := by
    rw [cut, position_boundary, longer, past, past, past, List.foldl_append]
  simp only [one, two]
  exact key_past_lt _ filled

theorem offsetOf_position {text : String} {b : Nat} (boundary : IsBoundary text b) :
    offsetOf text (position text b) = b := by
  obtain ⟨before, after, rfl, rfl⟩ := isBoundary_iff.mp boundary
  rw [position_boundary, offsetOf, String.toList_append, bytesTo_past, utf8Len_toList]

theorem position_behind (before after : String) (offset : Nat) :
    position (before ++ after) (before.utf8ByteSize + offset) =
      (position after offset).behind (position before before.utf8ByteSize) := by
  obtain ⟨inner, -, -, -, -, reached⟩ := exists_reached offset after.toList
  rw [position_append, position_end, position, reached, reached, past_behind]

/-- The place of an offset is exact: it tells the line feeds before the last boundary that the
offset has reached, and the characters since the last of them. Places of boundaries ascend with
them and can be turned back, and in a text that is cut in two they come from those in the parts. -/
theorem position_exact (text : String) :
    (∀ offset, ∃ before after, text = before ++ after ∧
      IsGreatest {b | IsBoundary text b ∧ b ≤ min offset text.utf8ByteSize} before.utf8ByteSize ∧
      position text offset =
        ⟨1 + before.toList.count '\n', 1 + (lastLine before.toList).length⟩) ∧
    StrictMonoOn (fun b => toLex ((position text b).line, (position text b).column))
      {b | IsBoundary text b} ∧
    (∀ b, IsBoundary text b → offsetOf text (position text b) = b) ∧
    ∀ first second, text = first ++ second → ∀ offset,
      let start := position first first.utf8ByteSize
      let place := position second offset
      position text (first.utf8ByteSize + offset) =
        ⟨start.line + place.line - 1,
          if place.line = 1 then place.column + (start.column - 1) else place.column⟩ := by
  refine ⟨fun offset => ?_, position_strictMonoOn text, fun b => offsetOf_position, ?_⟩
  · obtain ⟨before, after, whole, greatest, place⟩ := exists_boundary text offset
    exact ⟨before, after, whole, greatest, place.trans (past_start before.toList)⟩
  · rintro first second rfl offset
    exact position_behind first second offset

example : position "ä\nb" 4 = ⟨2, 2⟩ := by decide

end Rollout.Text
