import Rollout.Sqlite.Table

/-!
What a schema of a database holds, and how statements change it.
-/

namespace Rollout.Sqlite

/-- A view shows one row. -/
structure View where
  name : String
  results : List Result
deriving DecidableEq, Repr

structure Contents where
  /-- In the order in which they were made. -/
  tables : List Table := []
  views : List View := []
deriving DecidableEq, Repr

namespace Contents

def table? (contents : Contents) (name : String) : Option Table :=
  contents.tables.find? fun table => Identifier.same table.name name

def view? (contents : Contents) (name : String) : Option View :=
  contents.views.find? fun view => Identifier.same view.name name

/-- Puts a table in the place of the one with its name. -/
def update (contents : Contents) (table : Table) : Contents :=
  { contents with tables := contents.tables.map fun other =>
      if Identifier.same other.name table.name then table else other }

/-- Does the schema hold a table or a view with this name already? -/
def isTaken (contents : Contents) (name : String) : Bool :=
  (contents.table? name).isSome || (contents.view? name).isSome

/-- Refuses names that a new table or view cannot have. -/
def checkNew (contents : Contents) (object : ObjectName) : Except Fault Unit := do
  let name := object.name
  if Identifier.isReserved name.value then
    throw { text := s!"object name reserved for internal use: {name.value}" }
  let fault (kind : String) : Fault :=
    { text := s!"{kind} {name.token.written} already exists", offset := some name.token.offset }
  if (contents.table? name.value).isSome then throw (fault "table")
  if (contents.view? name.value).isSome then throw (fault "view")

/-- The first column with the name of one before it. -/
def repeated? : List Column → List Column → Option Column
  | _, [] => none
  | before, column :: rest =>
      if before.any fun other => Identifier.same other.name column.name then some column
      else repeated? (column :: before) rest

/-- References spell columns as they were made. -/
def resolve (columns : List Column) (reference : Reference) : Except Fault Reference :=
  match columns.find? fun column => Identifier.same column.name reference.column with
  | some column => .ok { reference with column := column.name }
  | none => .error { text := s!"unknown column \"{reference.column}\" in foreign key definition" }

def tableOf (name : String) (body : TableBody) : Except Fault Table := do
  match repeated? [] body.columns with
  | some column => throw { text := s!"duplicate column name: {column.name}" }
  | none => pure ()
  let references ← body.references.mapM (resolve body.columns)
  return { name, columns := body.columns, references }

def addTable (contents : Contents) (table : Table) : Contents :=
  { contents with tables := contents.tables ++ [table] }

def addView (contents : Contents) (view : View) : Contents :=
  { contents with views := contents.views ++ [view] }

def require (contents : Contents) (object : ObjectName) : Except Fault Table :=
  match contents.table? object.name.value with
  | some table => .ok table
  | none => .error { text := s!"no such table: {object.shown}" }

/-- The place of the column that a reference points to, if that column is the key of the table. -/
def keyPlace? (parent : Table) (reference : Reference) : Option Nat :=
  let isKey (column : Column) : Bool := column.isKey &&
    match reference.parentColumn with
    | some name => Identifier.same column.name name
    | none => true
  parent.columns.findIdx? isKey

/-- Refuses new rows of a table with a reference that leads nowhere. -/
def checkReference (contents : Contents) (object : ObjectName) (table : Table)
    (reference : Reference) : Except Fault Unit :=
  let mismatch : Fault := {
    text := s!"foreign key mismatch - \"{table.name}\" referencing \"{reference.parent}\"" }
  match contents.table? reference.parent, contents.view? reference.parent with
  | some parent, _ => if (keyPlace? parent reference).isSome then .ok () else .error mismatch
  | none, some _ => .error mismatch
  | none, none => .error { text := s!"no such table: {object.schemaName}.{reference.parent}" }

structure Insertion where
  /-- The name of the table. -/
  table : String
  /-- The place of each value; none for the row's number. -/
  places : List (Option Nat)
deriving DecidableEq, Repr

def placeOf (object : ObjectName) (table : Table) (name : String) :
    Except Fault (Option Nat) :=
  match table.place? name with
  | some place => .ok (some place)
  | none =>
      if Table.isNumberName name then .ok none
      else .error { text := s!"table {object.shown} has no column named {name}" }

/-- Where so many values go, for the named columns or for all. -/
def placesOf (object : ObjectName) (table : Table) (columns : Option (List String))
    (width : Nat) : Except Fault (List (Option Nat)) :=
  match columns with
  | some names =>
      if names.length ≠ width then
        .error { text := s!"{width} values for {names.length} columns" }
      else names.mapM (placeOf object table)
  | none =>
      let expected := table.columns.length
      if expected ≠ width then
        .error { text :=
          s!"table {object.shown} has {expected} columns but {width} values were supplied" }
      else .ok ((List.range width).map some)

/-- Looks up what new rows need, before there are any. -/
def prepare (contents : Contents) (object : ObjectName) (columns : Option (List String))
    (width : Nat) : Except Fault Insertion :=
  match contents.view? object.name.value with
  | some view => .error { text := s!"cannot modify {view.name} because it is a view" }
  | none => do
      let table ← contents.require object
      let places ← placesOf object table columns width
      -- References are looked up from the last to the first.
      discard ((table.references.reverse).mapM (contents.checkReference object table))
      return ⟨table.name, places⟩

/-- Does the value of a row stand in the key that a reference points to? -/
def holds (contents : Contents) (table : Table) (reference : Reference) (row : Row) : Bool :=
  match table.place? reference.column, contents.table? reference.parent with
  | some place, some parent =>
      match keyPlace? parent reference with
      | some key =>
          let value := Table.at? place row
          value == .null || parent.rows.any fun other => Table.at? key other == value
      | none => true
  | _, _ => true

def referenceBroken : Fault := Table.broken "FOREIGN KEY constraint failed"

def insert (contents : Contents) (insertion : Insertion) (values : List Value) :
    Except Fault Contents :=
  match contents.table? insertion.table with
  | none => .error { text := s!"no such table: {insertion.table}" }
  | some table => do
      let pairs := insertion.places.zip values
      let number := (pairs.find? (·.1.isNone)).map (·.2)
      let given := pairs.filterMap fun (place, value) => place.map fun place => (place, value)
      let (row, table) ← table.store given number
      let contents := contents.update table
      if table.references.all fun reference => contents.holds table reference row then
        return contents
      else throw referenceBroken

/-- Does a row of another table need a row of this one? -/
def isReferenced (contents : Contents) (table : Table) : Bool :=
  contents.tables.any fun child =>
    !Identifier.same child.name table.name &&
      child.references.any fun reference =>
        Identifier.same reference.parent table.name &&
          child.rows.any fun row =>
            let emptied := contents.update { table with rows := [] }
            contents.holds child reference row && !emptied.holds child reference row

def dropped (contents : Contents) (object : ObjectName) : Except Fault Table :=
  match contents.view? object.name.value with
  | some view => .error { text := s!"use DROP VIEW to delete view {view.name}" }
  | none => contents.require object

def dropTable (contents : Contents) (table : Table) : Except Fault Contents :=
  if contents.isReferenced table then .error referenceBroken
  else
    let isOther (other : Table) : Bool := !Identifier.same other.name table.name
    .ok { contents with tables := contents.tables.filter isOther }

def droppedView (contents : Contents) (object : ObjectName) : Except Fault View :=
  match contents.table? object.name.value, contents.view? object.name.value with
  | some table, _ => .error { text := s!"use DROP TABLE to delete table {table.name}" }
  | none, some view => .ok view
  | none, none => .error { text := s!"no such view: {object.shown}" }

def dropView (contents : Contents) (view : View) : Contents :=
  let isOther (other : View) : Bool := !Identifier.same other.name view.name
  { contents with views := contents.views.filter isOther }

def unknownColumn (name : Named) : Fault :=
  { text := s!"no such column: {name.value}", offset := some name.token.offset }

def shownRow (object : ObjectName) (table : Table) (row : Row) :
    List Result → Except Fault (List (Option String))
  | [] => .ok []
  | result :: rest => do
      let first ← match result with
        | .everything => pure (row.values.map (·.shown))
        | .count => pure [some (toString table.rows.length)]
        | .literal value => pure [value.shown]
        | .column name =>
            match table.place? name.value with
            | some place => pure [(Table.at? place row).shown]
            | none =>
                if Table.isNumberName name.value then pure [some (toString row.number)]
                else throw (unknownColumn name)
      return first ++ (← shownRow object table row rest)

def constants : List Result → Except Fault (List (Option String))
  | [] => .ok []
  | result :: rest => do
      let first ← match result with
        | .literal value => pure value.shown
        | .column name => throw (unknownColumn name)
        | .everything => throw { text := "no tables specified" }
        | .count => pure (some "1")
      return first :: (← constants rest)

/-- Refuses an order by a column that is not there. -/
def checkOrder (order : Option Named) (isColumn : String → Bool) : Except Fault Unit :=
  match order with
  | none => .ok ()
  | some name => if isColumn name.value then .ok () else .error (unknownColumn name)

/-- The results with what a view shows in place of everything. -/
def viewResults (view : View) (results : List Result) : List Result :=
  results.flatMap fun result => if result = .everything then view.results else [result]

/-- What a query of a table or a view shows: a count shows one row, all else one for every row. -/
def query (contents : Contents) (results : List Result) (object : ObjectName)
    (order : Option Named) : Except Fault (List (List (Option String))) :=
  match contents.view? object.name.value with
  | some view => do
      let shown ← constants (viewResults view results)
      checkOrder order fun _ => false
      return [shown]
  | none => do
      let table ← contents.require object
      -- Unknown columns are refused even where there are no rows.
      let sample ← shownRow object table ⟨0, []⟩ results
      checkOrder order fun name => (table.place? name).isSome || Table.isNumberName name
      if results.contains .count then return [sample]
      else table.rows.mapM fun row => shownRow object table row results

end Contents

end Rollout.Sqlite
