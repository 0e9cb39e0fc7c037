import Rollout.Sqlite.Execute

/-!
The advisory lock and the audit: tables that the program keeps in the main schema for its own
sake, and makes when it first needs them. The lock is a row; as its key takes one value only,
there is one such row at most.
-/

namespace Rollout.Sqlite

def lockObject : ObjectName := ObjectName.ofNames mainSchema lockTable

def logObject : ObjectName := ObjectName.ofNames mainSchema logTable

def lockNumber : Int := 1

/-- The lock and who holds it. The time at which it was taken is left empty. -/
def lockBody : TableBody where
  columns :=
    [{ name := "id", isNumber := true, isKey := true, only := some (lockNumber, "id = 1") },
      { name := "holder", isRequired := true },
      { name := "acquired_at", isRequired := true, missing := .text "" }]

def logBody : TableBody where
  columns :=
    [{ name := "id", isNumber := true, isKey := true }, { name := "ddsl", isRequired := true },
      { name := "executed_at", isRequired := true }, { name := "db_user" }, { name := "os_user" }]

/-- Who holds locks: processes. -/
def holder : String := "pid"

def isLockRow (table : Table) (row : Row) : Bool :=
  match table.place? "id" with
  | some place => (Table.at? place row).shown == some "1"
  | none => false

namespace Contents

def lockHolder? (contents : Contents) : Option String := do
  let table ← contents.table? lockTable
  let row ← table.rows.find? (isLockRow table)
  let place ← table.place? "holder"
  (Table.at? place row).shown

def deleteLock (contents : Contents) : Except Fault Contents :=
  match contents.view? lockTable with
  | some view => .error { text := s!"cannot modify {view.name} because it is a view" }
  | none => do
      let table ← contents.require lockObject
      if (table.place? "id").isNone then throw { text := "no such column: id" }
      return contents.update
        { table with rows := table.rows.filter fun row => !isLockRow table row }

end Contents

namespace State

/-- Stores one row in a table that is made if it is missing. -/
def keep (object : ObjectName) (body : TableBody) (columns : List String)
    (values : List Value) (state : State) : Except Fault Unit × State :=
  match state.createTable true object (.ok body) with
  | (.error fault, state) => (.error fault, state)
  | (.ok (), state) =>
      match state.prepareInsert object (some columns) columns.length with
      | .error fault => (.error fault, state)
      | .ok insertion => state.insertRow object.schemaName insertion values

def setLock (holdsLock : Bool) (state : State) : State :=
  state.withConnection { state.connection with holdsLock }

/-- Who keeps the lock from being taken. -/
def refuseLock (state : State) : Except DatabaseError Unit × State :=
  match state.contentsOf lockObject with
  | .error fault => (.error fault.asDriver, state)
  | .ok contents =>
      let state := state.noteRead mainSchema
      match contents.lockHolder? with
      | some holder => (.error (.lock s!"database is locked by {holder}"), state)
      | none => (.error (.driver "database error: Query returned no rows"), state)

def lock (state : State) : Except DatabaseError Unit × State :=
  if state.connection.holdsLock then
    (.error (.lock "lock already held by this connection"), state)
  else if !state.connection.isOpen then (.error closed, state)
  else
    let values := [Value.integer lockNumber, Value.text holder]
    match state.keep lockObject lockBody ["id", "holder"] values with
    | (.ok (), state) => (.ok (), state.setLock true)
    | (.error fault, state) =>
        if fault.constraint then state.refuseLock else (.error fault.asDriver, state)

def unlock (state : State) : Except DatabaseError Unit × State :=
  if !state.connection.holdsLock then (.error (.lock "lock is not held"), state)
  else if !state.connection.isOpen then (.error closed, state)
  else
    let checked : Except Fault Unit := do discard (← state.contentsOf lockObject).deleteLock
    match state.changeBy mainSchema checked fun () contents => contents.deleteLock with
    | (.ok (), state) => (.ok (), state.setLock false)
    | (.error fault, state) => (.error fault.asDriver, state)

def recordAudit (entry : AuditEntry) (state : State) : Except DatabaseError Unit × State :=
  if !state.connection.isOpen then (.error closed, state)
  else
    let user (name : Option String) : Value := match name with
      | some name => .text name
      | none => .null
    let values := [.text entry.command, .text entry.executedAt, user entry.databaseUser,
      user entry.systemUser]
    let (done, state) :=
      state.keep logObject logBody ["ddsl", "executed_at", "db_user", "os_user"] values
    (done.mapError Fault.asDriver, state)

end State

end Rollout.Sqlite
