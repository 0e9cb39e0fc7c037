import Rollout.Sqlite.Statement

/-!
Tables: their columns and rows, and what a row has to keep to.
-/

namespace Rollout.Sqlite

/-- A row of a table, with its number. -/
structure Row where
  number : Int
  values : List Value
deriving DecidableEq, Repr

structure Table where
  name : String
  columns : List Column
  references : List Reference := []
  /-- In ascending order by number. -/
  rows : List Row := []
deriving DecidableEq, Repr

namespace Table

def place? (table : Table) (name : String) : Option Nat :=
  table.columns.findIdx? fun column => Identifier.same column.name name

def at? (place : Nat) (row : Row) : Value := (row.values[place]?).getD .null

def numberNames : List String := ["rowid", "oid", "_rowid_"]

def isNumberName (name : String) : Bool := numberNames.any (Identifier.same name)

/-- The number for a new row for which none is given. -/
def nextNumber (table : Table) : Int :=
  (table.rows.foldl (fun greatest row => max greatest row.number) 0) + 1

/-- The rows with another one, in order. -/
def insertRow (row : Row) : List Row → List Row
  | [] => [row]
  | first :: rest =>
      if row.number < first.number then row :: first :: rest else first :: insertRow row rest

def broken (text : String) : Fault := { text, constraint := true }

def stored (value : Value) : Value :=
  match value with
  | .null => .null
  | .bytes content => .bytes content
  | other => .text (other.shown.getD "")

/-- The number that a value gives, or the next one if the value is null. -/
def numberOf (table : Table) (value : Value) : Except Fault Int :=
  match value with
  | .null => .ok table.nextNumber
  | .integer number => .ok number
  | .text text =>
      match Value.integerOf? text with
      | some number => .ok number
      | none => .error { text := "datatype mismatch" }
  | _ => .error { text := "datatype mismatch" }

/-- The values of a new row by the places they are given for; elsewhere stands what the columns
hold where nothing is given. -/
def valuesAt (given : List (Nat × Value)) : Nat → List Column → List Value
  | _, [] => []
  | place, column :: rest =>
      let value := match given.lookup place with
        | some value => value
        | none => column.missing
      value :: valuesAt given (place + 1) rest

/-- The first column that needs a value and has none. -/
def missingValue? : List Column → List Value → Option Column
  | column :: columns, value :: values =>
      if column.isRequired && !column.isNumber && value = .null then some column
      else missingValue? columns values
  | _, _ => none

/-- The first column that takes one integer only and has another. -/
def otherValue? (number : Int) : List Column → Option String
  | [] => none
  | column :: rest =>
      match column.only with
      | some (only, rule) => if number = only then otherValue? number rest else some rule
      | none => otherValue? number rest

/-- The first key column with a value that another row has already. -/
def takenKey? (table : Table) : Nat → List Column → List Value → Option Column
  | place, column :: columns, value :: values =>
      let isTaken := column.isKey && !column.isNumber && value != .null &&
        table.rows.any fun row => at? place row == value
      if isTaken then some column else table.takenKey? (place + 1) columns values
  | _, _, _ => none

def numberName (table : Table) : String :=
  match table.columns.find? (·.isNumber) with
  | some column => column.name
  | none => "rowid"

/-- A row from the given values, with the given number or the next one. -/
def rowOf (table : Table) (given : List (Nat × Value)) (number : Option Value) :
    Except Fault Row := do
  let values := valuesAt given 0 table.columns
  let numberPlace := table.columns.findIdx? (·.isNumber)
  let source := match numberPlace with
    | some place => (values[place]?).getD .null
    | none => .null
  let number ← table.numberOf (number.getD source)
  let values := (values.zip table.columns).map fun (value, column) =>
    if column.isNumber then .integer number else stored value
  return ⟨number, values⟩

/-- The table with another row, if the row keeps to what holds for the columns. -/
def store (table : Table) (given : List (Nat × Value)) (number : Option Value) :
    Except Fault (Row × Table) := do
  let row ← table.rowOf given number
  match missingValue? table.columns row.values with
  | some column => throw (broken s!"NOT NULL constraint failed: {table.name}.{column.name}")
  | none => pure ()
  match otherValue? row.number table.columns with
  | some rule => throw (broken s!"CHECK constraint failed: {rule}")
  | none => pure ()
  if table.rows.any (·.number == row.number) then
    throw (broken s!"UNIQUE constraint failed: {table.name}.{table.numberName}")
  match table.takenKey? 0 table.columns row.values with
  | some column => throw (broken s!"UNIQUE constraint failed: {table.name}.{column.name}")
  | none => pure ()
  return (row, { table with rows := insertRow row table.rows })

end Table

end Rollout.Sqlite
