import Rollout.Sqlite.Token
import Rollout.Sqlite.Value

/-!
Statements of SQL, as far as this dialect goes: it makes and drops tables and views, stores rows,
shows rows, and opens and ends transactions.
-/

namespace Rollout.Sqlite

/-- Why a statement was refused, and the byte of its text where the reason is, if it has a
place. -/
structure Fault where
  text : String
  offset : Option Nat := none
  /-- Does a row break a rule of its table? -/
  constraint : Bool := false
deriving DecidableEq, Repr

/-- A token that names something, and the name. -/
structure Named where
  token : Token
  value : String
deriving DecidableEq, Repr

/-- A table or a view, perhaps with the schema that it is in. -/
structure ObjectName where
  schema : Option Named := none
  name : Named
deriving DecidableEq, Repr

/-- A name as the program itself writes it. -/
def Named.ofName (name : String) : Named := ⟨⟨.name name, Identifier.quoted name, 0⟩, name⟩

def ObjectName.ofNames (schema name : String) : ObjectName :=
  { schema := some (Named.ofName schema), name := Named.ofName name }

def mainSchema : String := "main"

def ObjectName.schemaName (object : ObjectName) : String :=
  match object.schema with
  | some schema => schema.value
  | none => mainSchema

def ObjectName.shown (object : ObjectName) : String :=
  match object.schema with
  | some schema => schema.value ++ "." ++ object.name.value
  | none => object.name.value

structure Column where
  name : String
  /-- Does the column number the rows? -/
  isNumber : Bool := false
  isKey : Bool := false
  isRequired : Bool := false
  /-- The only integer that the column takes, and the rule that says so. -/
  only : Option (Int × String) := none
  /-- What the column holds where nothing is given. -/
  missing : Value := .null
deriving DecidableEq, Repr

/-- A column whose values stand in the key of another table of the schema, or in the given column
of it. -/
structure Reference where
  column : String
  parent : String
  parentColumn : Option String := none
deriving DecidableEq, Repr

structure TableBody where
  columns : List Column
  references : List Reference := []
deriving DecidableEq, Repr

inductive Result where
  | everything
  | count
  | literal (value : Value)
  | column (name : Named)
deriving DecidableEq, Repr

inductive Statement where
  | createTable (ifMissing : Bool) (object : ObjectName) (body : Except Fault TableBody)
  | createView (object : ObjectName) (results : List Result)
  | dropTable (object : ObjectName)
  | dropView (object : ObjectName)
  | insert (object : ObjectName) (columns : Option (List String)) (rows : List (List Value))
  | select (results : List Result) (source : Option (ObjectName × Option Named))
  | begin
  | commit
  | rollback

end Rollout.Sqlite
