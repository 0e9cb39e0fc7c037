import Rollout.Text.Blank
import Rollout.Text.Json

/-!
Tables: a header row and rows of text, written as aligned columns, as comma-separated values or
as records.
-/

namespace Rollout

structure Table where
  headers : List String
  rows : List (List String) := []
deriving DecidableEq, Repr

inductive Table.Format where
  | text
  | csv
  | json
deriving DecidableEq, Repr

def Table.Format.ofName? : String → Option Table.Format
  | "text" => some text
  | "csv" => some csv
  | "json" => some json
  | _ => none

def Table.Format.name : Table.Format → String
  | text => "text"
  | csv => "csv"
  | json => "json"

/-- A row has another number of cells than the header. -/
structure Table.RaggedRow where
  cells : Nat
  headers : Nat
deriving DecidableEq, Repr

def Table.RaggedRow.message (error : Table.RaggedRow) : String :=
  s!"CSV serialization failed: CSV error: found record with {error.cells} fields, " ++
    s!"but the previous record has {error.headers} fields"

namespace Table

/-- Widens columns to hold a row. Cells without a column do not count. -/
def widen : List Nat → List String → List Nat
  | width :: widths, cell :: cells => max width cell.length :: widen widths cells
  | widths, _ => widths

/-- The width of each column: that of its longest cell. -/
def widths (table : Table) : List Nat :=
  table.rows.foldl widen (table.headers.map String.length)

def pad (width : Nat) (cell : String) : List Char :=
  cell.toList ++ List.replicate (width - cell.length) ' '

/-- Columns are set apart by two blanks. -/
def joinColumns (columns : List (List Char)) : List Char :=
  [' ', ' '].intercalate columns

/-- One line of the text form, without blanks at its end. -/
def line (widths : List Nat) (cells : List String) : String :=
  String.ofList (Text.trimEnd (joinColumns (List.zipWith pad widths cells)))

def rule (widths : List Nat) : String :=
  String.ofList (joinColumns (widths.map fun width => List.replicate width '-'))

/-- The text form: headers, a rule, the rows and their number. -/
def toText (table : Table) : String :=
  let widths := table.widths
  let lines := line widths table.headers :: rule widths :: table.rows.map (line widths) ++
    [s!"({table.rows.length} rows)"]
  String.join (lines.map (· ++ "\n"))

/-- A field that holds a comma, a quote or a line end is quoted, with its quotes doubled. -/
def csvField (field : String) : String :=
  if field.toList.any fun c => c == ',' || c == '"' || c == '\n' || c == '\r' then
    let doubled := field.toList.flatMap fun c => if c = '"' then ['"', '"'] else [c]
    String.ofList ('"' :: (doubled ++ ['"']))
  else field

/-- A record of one empty field, or of none, is written as an empty quoted field. -/
def csvRecord (fields : List String) : String :=
  match fields with
  | [] | [""] => "\"\"\n"
  | _ => ",".intercalate (fields.map csvField) ++ "\n"

def csvRows (headers : Nat) : List (List String) → Except RaggedRow (List String)
  | [] => .ok []
  | row :: rest =>
      if row.length = headers then (csvRows headers rest).map (csvRecord row :: ·)
      else .error ⟨row.length, headers⟩

/-- Comma-separated values. Every row has as many cells as the header. -/
def toCsv (table : Table) : Except RaggedRow String :=
  (csvRows table.headers.length table.rows).map fun rows =>
    String.join (csvRecord table.headers :: rows)

/-- A list of records, one for each row. -/
def toJson (table : Table) : String :=
  let records := table.rows.map fun row =>
    Text.Json.sortedRecord ((table.headers.zip row).map fun (header, cell) =>
      (header, Text.Json.text cell))
  (Text.Json.list records).written ++ "\n"

def written (table : Table) : Format → Except RaggedRow String
  | .text => .ok table.toText
  | .csv => table.toCsv
  | .json => .ok table.toJson

end Table

end Rollout
