/-!
Names in SQL, and the statements that are made of them. Names are quoted there; letters of either
case are the same in names, as far as ASCII goes.
-/

namespace Rollout.Sqlite

/-- A name that cannot be written in SQL: the empty one, or one with a NUL. -/
structure InvalidIdentifier where
  name : String
deriving DecidableEq, Repr

def InvalidIdentifier.message (invalid : InvalidIdentifier) : String :=
  s!"invalid identifier '{invalid.name}'"

namespace Identifier

/-- Every double quote is written twice. -/
def escape (c : Char) : List Char := if c = '"' then ['"', '"'] else [c]

def quoted (name : String) : String :=
  String.ofList ('"' :: (name.toList.flatMap escape ++ ['"']))

def isValid (name : String) : Bool := !name.isEmpty && !name.toList.contains '\x00'

/-- The quoted form of a name that can be written. -/
def quote (name : String) : Except InvalidIdentifier String :=
  if isValid name then .ok (quoted name) else .error ⟨name⟩

/-- Are the names the same to the database? -/
def same (first second : String) : Bool :=
  first.toList.map Char.toLower == second.toList.map Char.toLower

/-- Names that begin so belong to the database itself. -/
def isReserved (name : String) : Bool :=
  "sqlite_".toList.isPrefixOf (name.toList.map Char.toLower)

end Identifier

/-- A statement that the program writes itself. Names stand in its text between quotes; values stay
outside, with a mark in the place of each. -/
inductive Written where
  /-- Attaches a database as a schema. -/
  | attach (schema : String)
  /-- The tables and views of a schema. -/
  | items (schema : String)
  /-- The references of a table. -/
  | references (schema table : String)
  /-- Stores a row of so many fields, in the named columns if columns are named. -/
  | insertion (schema table : String) (columns : Option (List String)) (width : Nat)
deriving DecidableEq, Repr

namespace Written

/-- The names that go into the text, in the order in which they stand there. -/
def names : Written → List String
  | attach schema => [schema]
  | items schema => [schema]
  | references schema table => [schema, table]
  | insertion schema table columns _ => schema :: table :: columns.getD []

def placeholders (width : Nat) : String := ", ".intercalate (List.replicate width "?")

/-- The text of the statement. There is none where a name cannot be written. -/
def text : Written → Except InvalidIdentifier String
  | attach schema => do
      let schema ← Identifier.quote schema
      return s!"ATTACH DATABASE ?1 AS {schema}"
  | items schema => do
      let schema ← Identifier.quote schema
      return s!"SELECT name, type FROM {schema}.sqlite_master " ++
        "WHERE type IN ('table', 'view') AND name NOT LIKE 'sqlite_%' ORDER BY name"
  | references schema table => do
      let schema ← Identifier.quote schema
      let table ← Identifier.quote table
      return s!"PRAGMA {schema}.foreign_key_list({table})"
  | insertion schema table columns width => do
      let schema ← Identifier.quote schema
      let table ← Identifier.quote table
      let values := placeholders width
      match columns with
      | some columns =>
          let columns := ", ".intercalate (← columns.mapM Identifier.quote)
          return s!"INSERT INTO {schema}.{table} ({columns}) VALUES ({values})"
      | none => return s!"INSERT INTO {schema}.{table} VALUES ({values})"

end Written

def logTable : String := "ddsl_log"

def lockTable : String := "ddsl_lock"

/-- Is the table there for the program's own sake? -/
def isBookkeeping (name : String) : Bool := name == logTable || name == lockTable

end Rollout.Sqlite
