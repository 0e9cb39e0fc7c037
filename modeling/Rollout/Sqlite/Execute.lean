import Rollout.Database
import Rollout.Sqlite.Connection
import Rollout.Sqlite.Parser
import Rollout.Text.Position

/-!
Executing SQL on a connection.
-/

namespace Rollout.Sqlite

def closed : DatabaseError := .driver "connection is closed"

/-- The error of a call that executes statements of the program's own. -/
def Fault.asDriver (fault : Fault) : DatabaseError := .driver s!"database error: {fault.text}"

/-- The error of a text of statements. Its place counts from the start of the text. -/
def Fault.inText (sql : String) (fault : Fault) : DatabaseError :=
  match fault.offset with
  | none => .statement fault.text none none
  | some offset =>
      let place := Text.position sql offset
      .statement fault.text (some place.line) (some place.column)

def InvalidIdentifier.asDriver (invalid : InvalidIdentifier) : DatabaseError :=
  .driver invalid.message

namespace State

/-- The contents of a schema that a name for a new table or view has to be in. -/
def schemaOf (object : ObjectName) (state : State) : Except Fault Contents := do
  match ← state.schema? object.schemaName, object.schema with
  | some contents, _ => return contents
  | none, some schema =>
      let text := s!"unknown database {schema.token.written}"
      throw { text, offset := some schema.token.offset }
  | none, none => return {}

/-- The contents of the schema of a table or a view. There are no tables in a schema that is not
there. -/
def contentsOf (object : ObjectName) (state : State) : Except Fault Contents :=
  (state.schema? object.schemaName).map (·.getD {})

/-- Changes a schema, by something that has been looked up before. -/
def changeBy {α : Type} (schema : String) (found : Except Fault α)
    (change : α → Contents → Except Fault Contents) (state : State) :
    Except Fault Unit × State :=
  match found with
  | .error fault => (.error fault, state)
  | .ok value => state.change schema (change value)

def createTable (ifMissing : Bool) (object : ObjectName) (body : Except Fault TableBody)
    (state : State) : Except Fault Unit × State :=
  let contents := state.schemaOf object
  if ifMissing && (contents.map (·.isTaken object.name.value)).toOption == some true then
    (.ok (), state.noteRead object.schemaName)
  else
    let found : Except Fault Table := do
      (← contents).checkNew object
      Contents.tableOf object.name.value (← body)
    state.changeBy object.schemaName found fun table contents => .ok (contents.addTable table)

def createView (object : ObjectName) (results : List Result) (state : State) :
    Except Fault Unit × State :=
  let checked : Except Fault Unit := do (← state.schemaOf object).checkNew object
  state.changeBy object.schemaName checked fun () contents =>
    .ok (contents.addView ⟨object.name.value, results⟩)

def dropTable (object : ObjectName) (state : State) : Except Fault Unit × State :=
  let found : Except Fault Table := do (← state.contentsOf object).dropped object
  state.changeBy object.schemaName found fun table contents => contents.dropTable table

def dropView (object : ObjectName) (state : State) : Except Fault Unit × State :=
  let found : Except Fault View := do (← state.contentsOf object).droppedView object
  state.changeBy object.schemaName found fun view contents => .ok (contents.dropView view)

def prepareInsert (object : ObjectName) (columns : Option (List String)) (width : Nat)
    (state : State) : Except Fault Contents.Insertion := do
  (← state.contentsOf object).prepare object columns width

def insertRow (schema : String) (insertion : Contents.Insertion) (values : List Value)
    (state : State) : Except Fault Unit × State :=
  state.change schema fun contents => contents.insert insertion values

/-- Stores rows, all or none. -/
def insert (object : ObjectName) (columns : Option (List String)) (rows : List (List Value))
    (state : State) : Except Fault Unit × State :=
  let prepared := state.prepareInsert object columns (rows.headD []).length
  state.changeBy object.schemaName prepared fun insertion contents =>
    rows.foldlM (fun contents values => contents.insert insertion values) contents

def select (results : List Result) (source : Option (ObjectName × Option Named))
    (state : State) : Except Fault (List (List (Option String))) × State :=
  match source with
  | none => ((Contents.constants results).map ([·]), state)
  | some (object, order) =>
      match state.contentsOf object >>= fun contents => contents.query results object order with
      | .error fault => (.error fault, state)
      | .ok rows => (.ok rows, state.noteRead object.schemaName)

/-- Executes one statement; what a query shows is left out. -/
def execute (statement : Statement) (state : State) : Except Fault Unit × State :=
  match statement with
  | .createTable ifMissing object body => state.createTable ifMissing object body
  | .createView object results => state.createView object results
  | .dropTable object => state.dropTable object
  | .dropView object => state.dropView object
  | .insert object columns rows => state.insert object columns rows
  | .select results source =>
      let (shown, state) := state.select results source
      (shown.map fun _ => (), state)
  | .begin => state.begin
  | .commit => state.commit
  | .rollback => state.rollback

/-- Executes statements up to the first that fails. There are no more of them than there are
tokens. -/
def executeAll : Nat → List Token → State → Except Fault Unit × State
  | 0, _, state => (.ok (), state)
  | turns + 1, tokens, state =>
      match Parser.next tokens with
      | .error fault => (.error fault, state)
      | .ok none => (.ok (), state)
      | .ok (some (statement, rest)) =>
          match state.execute statement with
          | (.error fault, state) => (.error fault, state)
          | (.ok (), state) => executeAll turns rest state

def exec (sql : String) (state : State) : Except DatabaseError Unit × State :=
  if !state.connection.isOpen then (.error closed, state)
  else
    let tokens := Token.ofText sql
    let (done, state) := executeAll tokens.length tokens state
    (done.mapError (Fault.inText sql), state)

/-- The rows that a query shows; a text without a query shows none. -/
def query (sql : String) (state : State) :
    Except DatabaseError (List (List (Option String))) × State :=
  if !state.connection.isOpen then (.error closed, state)
  else
    let (shown, state) : Except Fault (List (List (Option String))) × State :=
      match Parser.next (Token.ofText sql) with
      | .error fault => (.error fault, state)
      | .ok none => (.ok [], state)
      | .ok (some (.select results source, _)) => state.select results source
      | .ok (some (statement, _)) =>
          let (done, state) := state.execute statement
          (done.map fun () => [], state)
    (shown.mapError (Fault.inText sql), state)

end State

end Rollout.Sqlite
