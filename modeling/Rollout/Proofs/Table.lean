import Rollout.Table
import Rollout.Text.Pieces
import Rollout.Proofs.Text
import Mathlib.Data.Nat.Digits.Defs
import Mathlib.Data.String.Basic
import Mathlib.Order.Bounds.Defs

/-!
The text form of a table. A column is as wide as the longest of its cells, and every cell starts
where its column does, so each cell is read from its line by counting characters.
-/

namespace Rollout

namespace Text

/-- All that is cut from the end of a text is white space. -/
theorem trimEnd_spec (text : List Char) :
    ∃ blanks, allBlank blanks = true ∧ trimEnd text ++ blanks = text := by
  have parts := List.takeWhile_append_dropWhile (p := isBlank) (l := text.reverse)
  refine ⟨(text.reverse.takeWhile isBlank).reverse, ?_, ?_⟩
  · simp [allBlank]
  · rw [trimEnd, ← List.reverse_append, parts, List.reverse_reverse]

/-- Lines that are written with a line feed behind each are cut where they end. -/
theorem pieces_ended {lines : List (List Char)} (free : ∀ line ∈ lines, '\n' ∉ line) :
    pieces '\n' (lines.flatMap (· ++ ['\n'])) = lines ++ [[]] := by
  induction lines with
  | nil => rfl
  | cons line rest ih =>
      obtain ⟨first, others⟩ := List.forall_mem_cons.mp free
      rw [List.flatMap_cons, List.append_assoc, List.singleton_append, pieces_append,
        pieces_of_free first, ih others]
      rfl

theorem length_lines_ended {lines : List String} (free : ∀ line ∈ lines, '\n' ∉ line.toList) :
    (Text.lines (String.join (lines.map (· ++ "\n")))).length = lines.length := by
  have letters : (String.join (lines.map (· ++ "\n"))).toList =
      (lines.map String.toList).flatMap (· ++ ['\n']) := by
    simp [String.toList_join, List.flatMap_map]
  have cut : pieces '\n' ((lines.map String.toList).flatMap (· ++ ['\n'])) =
      lines.map String.toList ++ [[]] := pieces_ended (by simpa using free)
  rw [Text.lines, List.length_map, lineChars, letters, cut, List.reverse_concat]
  simp

end Text

namespace Table

open Text (allBlank isBlank)

/-- The header of a column and the cells below it. A row may end before the column. -/
def column (table : Table) (i : Nat) : List String :=
  (table.headers :: table.rows).filterMap fun cells => cells[i]?

/-- Where a column starts: two blanks behind each column before it. -/
def start (widths : List Nat) (i : Nat) : Nat := ((widths.take i).map (· + 2)).sum

variable {widths : List Nat} {cells : List String} {i width : Nat}

theorem length_widen (widths : List Nat) (cells : List String) :
    (widen widths cells).length = widths.length := by
  induction widths generalizing cells with
  | nil => cases cells <;> rfl
  | cons width widths ih =>
      cases cells with
      | nil => rfl
      | cons cell cells => simp [widen, ih]

/-- A column is widened by the cell of the row that stands in it, if there is one. -/
theorem getElem?_widen (widths : List Nat) (cells : List String) (i : Nat) :
    (widen widths cells)[i]? =
      widths[i]?.map fun width => (cells[i]?.toList.map String.length).foldl max width := by
  induction widths generalizing cells i with
  | nil => cases cells <;> simp [widen]
  | cons width widths ih =>
      cases cells with
      | nil => simp [widen]
      | cons cell cells =>
          cases i with
          | zero => simp [widen]
          | succ i => simpa [widen] using ih cells i

theorem length_foldl_widen (rows : List (List String)) (widths : List Nat) :
    (rows.foldl widen widths).length = widths.length := by
  induction rows generalizing widths with
  | nil => rfl
  | cons row rows ih => rw [List.foldl_cons, ih, length_widen]

theorem getElem?_foldl_widen (rows : List (List String)) (widths : List Nat) (i : Nat) :
    (rows.foldl widen widths)[i]? =
      widths[i]?.map fun width =>
        ((rows.filterMap fun cells => cells[i]?).map String.length).foldl max width := by
  induction rows generalizing widths with
  | nil => simp
  | cons row rows ih =>
      rw [List.foldl_cons, ih, getElem?_widen, Option.map_map]
      congr 1
      funext width
      cases cell : row[i]? <;> simp [cell]

theorem length_widths (table : Table) : table.widths.length = table.headers.length := by
  rw [Table.widths, length_foldl_widen, List.length_map]

/-- The width of a column is that of the longest of its cells. -/
theorem widths_isGreatest (table : Table) (found : table.widths[i]? = some width) :
    IsGreatest {n | ∃ cell ∈ table.column i, cell.length = n} width := by
  rw [Table.widths, getElem?_foldl_widen, List.getElem?_map, Option.map_map] at found
  obtain ⟨header, first, rfl⟩ := Option.map_eq_some_iff.mp found
  have lengths : ∀ n, (∃ cell ∈ table.column i, cell.length = n) ↔
      n ∈ header.length :: (table.rows.filterMap fun cells => cells[i]?).map String.length := by
    simp [column, first, eq_comm]
  obtain ⟨held, above⟩ := List.max?_eq_some_iff.mp
    (List.max?_cons' : (header.length :: _).max? = some _)
  exact ⟨(lengths _).mpr held, fun n member => above n ((lengths n).mp member)⟩

theorem length_pad {cell : String} (fits : cell.length ≤ width) :
    (pad width cell).length = width := by
  rw [pad, List.length_append, List.length_replicate, String.length_toList]
  omega

/-- Behind the columns before it, a column stands as it is. -/
theorem drop_joinColumns {columns : List (List Char)} {column : List Char}
    (found : columns[i]? = some column) :
    ∃ rest, (joinColumns columns).drop (start (columns.map List.length) i) = column ++ rest := by
  induction columns generalizing i with
  | nil => cases found
  | cons first columns ih =>
      cases i with
      | zero =>
          cases found
          cases columns with
          | nil => exact ⟨[], by simp [joinColumns, start]⟩
          | cons second columns => exact ⟨_, by simp [joinColumns, start]; rfl⟩
      | succ i =>
          have within : columns[i]? = some column := found
          obtain ⟨rest, later⟩ := ih within
          obtain ⟨second, columns, rfl⟩ :=
            List.exists_cons_of_ne_nil (List.ne_nil_of_mem (List.mem_of_getElem? within))
          have longer : start ((first :: second :: columns).map List.length) (i + 1) =
              (first ++ [' ', ' ']).length + start ((second :: columns).map List.length) i := by
            simp [start]
          refine ⟨rest, ?_⟩
          rw [longer, ← List.drop_drop, joinColumns, List.intercalate_cons_cons,
            List.drop_left]
          exact later

/-- No cell is longer than its column is wide. -/
def Fits (widths : List Nat) (cells : List String) : Prop :=
  ∀ (i : Nat) (cell : String) (width : Nat), cells[i]? = some cell → widths[i]? = some width →
    cell.length ≤ width

theorem fits_widths (table : Table) (member : cells ∈ table.headers :: table.rows) :
    Fits table.widths cells := by
  intro i cell width held found
  exact (table.widths_isGreatest found).2 ⟨cell, List.mem_filterMap.mpr ⟨cells, member, held⟩, rfl⟩

theorem lengths_padded (fits : Fits widths cells) :
    (List.zipWith pad widths cells).map List.length = widths.take cells.length := by
  induction widths generalizing cells with
  | nil => simp
  | cons width widths ih =>
      cases cells with
      | nil => rfl
      | cons cell cells =>
          have others : Fits widths cells := fun i => fits (i + 1)
          simp [length_pad (fits 0 cell width rfl rfl), ih others]

/-- What is cut from the end of a line is put back: each cell starts where its column does, and
blanks follow it as far as the column goes. -/
theorem line_aligned (fits : Fits widths cells) :
    ∃ blanks, allBlank blanks = true ∧ ∀ i cell width, cells[i]? = some cell →
      widths[i]? = some width →
      (((line widths cells).toList ++ blanks).drop (start widths i)).take width =
        cell.toList ++ List.replicate (width - cell.length) ' ' := by
  obtain ⟨blanks, blank, whole⟩ := Text.trimEnd_spec (joinColumns (List.zipWith pad widths cells))
  refine ⟨blanks, blank, fun i cell width held found => ?_⟩
  have padded : (List.zipWith pad widths cells)[i]? = some (pad width cell) := by
    simp [List.getElem?_zipWith, held, found]
  obtain ⟨rest, behind⟩ := drop_joinColumns padded
  have before : start ((List.zipWith pad widths cells).map List.length) i = start widths i := by
    have within : i < cells.length := (List.getElem?_eq_some_iff.mp held).1
    rw [lengths_padded fits, start, start, List.take_take, Nat.min_eq_left within.le]
  rw [line, String.toList_ofList, whole, ← before, behind,
    List.take_append_of_le_length (length_pad (fits i cell width held found)).ge,
    List.take_of_length_le (length_pad (fits i cell width held found)).le, pad]

theorem rule_eq (widths : List Nat) :
    rule widths = "  ".intercalate
      (widths.map fun width => String.ofList (List.replicate width '-')) := by
  apply String.ext
  simp [rule, joinColumns, String.toList_intercalate, Function.comp_def]

theorem mem_joinColumns {columns : List (List Char)} {c : Char} (member : c ∈ joinColumns columns) :
    c = ' ' ∨ ∃ column ∈ columns, c ∈ column := by
  induction columns with
  | nil => cases member
  | cons first columns ih =>
      cases columns with
      | nil =>
          rw [joinColumns, List.intercalate_singleton] at member
          exact .inr ⟨first, List.mem_cons_self, member⟩
      | cons second columns =>
          rw [joinColumns, List.intercalate_cons_cons] at member
          rcases List.mem_append.mp member with here | later
          · rcases List.mem_append.mp here with within | between
            · exact .inr ⟨first, List.mem_cons_self, within⟩
            · exact .inl (by simpa using between)
          · refine (ih later).imp_right ?_
            rintro ⟨column, among, letter⟩
            exact ⟨column, List.mem_cons_of_mem _ among, letter⟩

theorem not_mem_line (free : ∀ cell ∈ cells, '\n' ∉ cell.toList) (widths : List Nat) :
    '\n' ∉ (line widths cells).toList := by
  obtain ⟨blanks, -, whole⟩ := Text.trimEnd_spec (joinColumns (List.zipWith pad widths cells))
  intro member
  rw [line, String.toList_ofList] at member
  have within : '\n' ∈ joinColumns (List.zipWith pad widths cells) := by
    rw [← whole]
    exact List.mem_append_left _ member
  rcases mem_joinColumns within with blank | ⟨column, among, letter⟩
  · exact absurd blank (by decide)
  · rw [← List.map_uncurry_zip_eq_zipWith] at among
    obtain ⟨⟨width, cell⟩, pair, rfl⟩ := List.mem_map.mp among
    rcases List.mem_append.mp letter with inside | padding
    · exact free cell (List.of_mem_zip pair).2 inside
    · exact absurd (List.eq_of_mem_replicate padding) (by decide)

theorem not_mem_rule (widths : List Nat) : '\n' ∉ (rule widths).toList := by
  intro member
  rw [rule, String.toList_ofList] at member
  rcases mem_joinColumns member with blank | ⟨column, among, letter⟩
  · exact absurd blank (by decide)
  · obtain ⟨width, -, rfl⟩ := List.mem_map.mp among
    exact absurd (List.eq_of_mem_replicate letter) (by decide)

theorem not_mem_count (count : Nat) : '\n' ∉ s!"({count} rows)".toList := by
  intro member
  have digits : '\n' ∈ Nat.toDigits 10 count := by
    simpa [toString, Nat.repr_eq_ofList_toDigits] using member
  exact absurd (Nat.isDigit_of_mem_toDigits (by decide) (by decide) digits) (by decide)

/-- The text form of a table: the headers, a rule, the rows and their number, each on a line of its
own. A column is as wide as its longest cell; once the white space that was cut from the end of a
line is put back, each cell stands where its column starts, with blanks up to its width. -/
theorem toText_aligned (table : Table) :
    table.widths.length = table.headers.length ∧
    (∀ (i width : Nat), table.widths[i]? = some width →
      IsGreatest {n | ∃ cell ∈ table.column i, cell.length = n} width) ∧
    table.toText = String.join ((line table.widths table.headers :: rule table.widths ::
      table.rows.map (line table.widths) ++ [s!"({table.rows.length} rows)"]).map (· ++ "\n")) ∧
    rule table.widths = "  ".intercalate
      (table.widths.map fun width => String.ofList (List.replicate width '-')) ∧
    (∀ cells ∈ table.headers :: table.rows, ∃ blanks, allBlank blanks = true ∧
      ∀ (i : Nat) (cell : String) (width : Nat), cells[i]? = some cell →
        table.widths[i]? = some width →
        (((line table.widths cells).toList ++ blanks).drop (start table.widths i)).take width =
          cell.toList ++ List.replicate (width - cell.length) ' ') ∧
    ((∀ cells ∈ table.headers :: table.rows, ∀ cell ∈ cells, '\n' ∉ cell.toList) →
      (Text.lines table.toText).length = table.rows.length + 3) := by
  refine ⟨table.length_widths, fun i width => table.widths_isGreatest, rfl, rule_eq _,
    fun cells member => line_aligned (table.fits_widths member), fun free => ?_⟩
  have ended : ∀ written ∈ line table.widths table.headers :: rule table.widths ::
      table.rows.map (line table.widths) ++ [s!"({table.rows.length} rows)"],
      '\n' ∉ written.toList := by
    intro written member
    simp only [List.mem_append, List.mem_cons, List.mem_map, List.not_mem_nil, or_false] at member
    rcases member with (rfl | rfl | ⟨row, among, rfl⟩) | rfl
    · exact not_mem_line (free _ List.mem_cons_self) _
    · exact not_mem_rule _
    · exact not_mem_line (free row (List.mem_cons_of_mem _ among)) _
    · exact not_mem_count _
  have count := Text.length_lines_ended ended
  simpa [toText] using count

example : (⟨["id", "name"], [["10", "a"], ["2"]]⟩ : Table).toText =
    "id  name\n--  ----\n10  a\n2\n(2 rows)\n" := by decide

end Table

end Rollout
