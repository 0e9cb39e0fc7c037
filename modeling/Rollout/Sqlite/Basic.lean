import Rollout.Registry
import Rollout.Sqlite.Bookkeeping
import Rollout.Sqlite.Catalog
import Rollout.Sqlite.Load

/-!
The database as a run sees it.
-/

namespace Rollout.Sqlite

namespace State

def beginTransaction (state : State) : Except DatabaseError Unit × State :=
  if state.inTransaction then (.error (.transaction "a transaction is already open"), state)
  else state.exec "BEGIN"

def commitTransaction (state : State) : Except DatabaseError Unit × State :=
  if !state.inTransaction then (.error (.transaction "no transaction is open"), state)
  else state.exec "COMMIT"

def rollBackTransaction (state : State) : Except DatabaseError Unit × State :=
  if !state.inTransaction then (.error (.transaction "no transaction is open"), state)
  else state.exec "ROLLBACK"

def attachSchema (schema : String) (state : State) : Except DatabaseError Unit × State :=
  if !state.connection.isOpen then (.error closed, state)
  else if !Identifier.isValid schema then
    (.error (InvalidIdentifier.asDriver ⟨schema⟩), state)
  else
    let (done, state) := state.attach schema
    (done.mapError Fault.asDriver, state)

/-- Closes the connection. What its transaction has changed is lost. -/
def close (state : State) : Except DatabaseError Unit × State :=
  if !state.connection.isOpen then (.error closed, state)
  else
    let (_, state) := state.rollback
    (.ok (), state.withConnection { state.connection with isOpen := false })

def perform (call : Database.Call) (state : State) : Except DatabaseError call.Reply × State :=
  match call with
  | .lock => state.lock
  | .unlock => state.unlock
  | .begin => state.beginTransaction
  | .commit => state.commitTransaction
  | .rollback => state.rollBackTransaction
  | .exec sql => state.exec sql
  | .loadCsv file schema table options =>
      state.loadCsv file.path (.ok file.content) schema table options
  | .schemaNames => state.schemaNames
  | .foreignKeys => state.foreignKeys
  | .schemaItems schema kind => state.schemaItems schema kind
  -- There are no database users.
  | .currentUser => (.ok none, state)
  | .recordAudit entry => state.recordAudit entry
  | .close => state.close

end State

def database : Database State where
  perform := State.perform
  inTransaction := State.inTransaction

structure Shared where
  file : File := {}
  connections : List Connection
deriving DecidableEq, Repr

namespace Shared

def act {α : Type} (number : Nat) (action : State → α × State) (shared : Shared) : α × Shared :=
  let connection := (shared.connections[number]?).getD {}
  let (answer, state) := action { file := shared.file, connection }
  (answer, { file := state.file, connections := shared.connections.set number state.connection })

end Shared

/-- The path of a database that is kept in memory. -/
def memoryPath : String := ":memory:"

/-- Opens the database at a path of a workspace; it is new and empty. Without a path it is a
temporary one. -/
def openAt (workspace : Workspace) (path : String) : Except DatabaseError State :=
  let canHoldFile := (workspace.fileNames path).toOption.isSome
  if path = memoryPath ∨ path = "" ∨ Path.isAbsolute path ∨ canHoldFile then .ok {}
  else
    let fault : Fault := { text := s!"unable to open database file: {path}" }
    .error fault.asDriver

def register (workspace : Workspace) (registry : Registry State) : Registry State :=
  registry.registerDatabase "sqlite" fun location =>
    (openAt workspace location.path).mapError .database

end Rollout.Sqlite
