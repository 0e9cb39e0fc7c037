import Rollout.Sqlite.Contents

/-!
Connections to a file. Every connection sees what has been committed, and with it what its own
open transaction has changed. One connection at a time may have changes that are not committed,
and they are committed only when no other transaction reads.
-/

namespace Rollout.Sqlite

/-- Does a connection have changes that are not committed? -/
inductive Writer where
  | nobody
  | changing
  /-- It waits for readers to finish, and no new ones are let in. -/
  | waiting
deriving DecidableEq, Repr

/-- The main database, which connections share. -/
structure File where
  contents : Contents := {}
  /-- How many transactions have read and not changed anything. -/
  readers : Nat := 0
  writer : Writer := .nobody
deriving DecidableEq, Repr

/-- What an open transaction has done with the file. -/
inductive Use where
  | none
  | reading
  /-- It has changed the contents to these. -/
  | writing (contents : Contents)
deriving DecidableEq, Repr

structure Transaction where
  use : Use := .none
  /-- The contents of the connection's own schemas before the transaction. -/
  saved : List (String × Contents)
deriving DecidableEq, Repr

/-- The schema for what lives no longer than a connection. -/
def temporarySchema : String := "temp"

structure Connection where
  isOpen : Bool := true
  /-- Has the connection taken the advisory lock? -/
  holdsLock : Bool := false
  /-- Schemas of its own, by name. -/
  schemas : List (String × Contents) := [(temporarySchema, {})]
  transaction : Option Transaction := none
deriving DecidableEq, Repr

/-- A connection and the file it is connected to. -/
structure State where
  file : File := {}
  connection : Connection := {}
deriving DecidableEq, Repr

namespace State

/-- The file is in use in a way that shuts others out. -/
def busy : Fault := { text := "database is locked" }

def inTransaction (state : State) : Bool := state.connection.transaction.isSome

def withConnection (state : State) (connection : Connection) : State := { state with connection }

/-- Notes what the open transaction does with the file, if one is open. -/
def setUse (use : Use) (state : State) : State :=
  match state.connection.transaction with
  | some transaction =>
      state.withConnection
        { state.connection with transaction := some { transaction with use } }
  | none => state

def seen (state : State) : Except Fault Contents :=
  match state.connection.transaction with
  | some { use := .writing contents, .. } => .ok contents
  | some { use := .reading, .. } => .ok state.file.contents
  | _ => if state.file.writer = .waiting then .error busy else .ok state.file.contents

/-- A transaction that has read the file counts as a reader until it ends. -/
def counted (state : State) : State :=
  match state.connection.transaction with
  | some { use := .none, .. } =>
      let file := { state.file with readers := state.file.readers + 1 }
      { state with file }.setUse .reading
  | _ => state

/-- Changes the file: within a transaction the contents that only this connection sees, else the
contents that all see. A change that fails leaves the contents as they were. -/
def changeFile (change : Contents → Except Fault Contents) (state : State) :
    Except Fault Unit × State :=
  match state.seen with
  | .error fault => (.error fault, state)
  | .ok contents =>
      match state.connection.transaction with
      | none =>
          if state.file.writer ≠ .nobody then (.error busy, state)
          else match change contents with
            | .error fault => (.error fault, state)
            | .ok contents =>
                if state.file.readers ≠ 0 then (.error busy, state)
                else (.ok (), { state with file := { state.file with contents } })
      | some { use := .writing _, .. } =>
          match change contents with
          | .error fault => (.error fault, state)
          | .ok contents => (.ok (), state.setUse (.writing contents))
      | some _ =>
          if state.file.writer ≠ .nobody then (.error busy, state)
          else
            let readers := state.counted.file.readers - 1
            let state : State := { state with
              file := { state.file with readers, writer := .changing } }
            match change contents with
            | .error fault => (.error fault, state.setUse (.writing contents))
            | .ok contents => (.ok (), state.setUse (.writing contents))

def ownSchema? (schema : String) (state : State) : Option Contents :=
  (state.connection.schemas.find? fun (name, _) => Identifier.same name schema).map (·.2)

def setOwnSchema (schema : String) (contents : Contents) (state : State) : State :=
  let schemas := state.connection.schemas.map fun (name, other) =>
    if Identifier.same name schema then (name, contents) else (name, other)
  state.withConnection { state.connection with schemas }

/-- A schema as the connection sees it; none if there is no such schema. -/
def schema? (schema : String) (state : State) : Except Fault (Option Contents) :=
  if Identifier.same schema mainSchema then state.seen.map some
  else .ok (state.ownSchema? schema)

def noteRead (schema : String) (state : State) : State :=
  if Identifier.same schema mainSchema then state.counted else state

def change (schema : String) (change : Contents → Except Fault Contents) (state : State) :
    Except Fault Unit × State :=
  if Identifier.same schema mainSchema then state.changeFile change
  else match change ((state.ownSchema? schema).getD {}) with
    | .error fault => (.error fault, state)
    | .ok contents => (.ok (), state.setOwnSchema schema contents)

def begin (state : State) : Except Fault Unit × State :=
  if state.inTransaction then
    (.error { text := "cannot start a transaction within a transaction" }, state)
  else
    let transaction : Transaction := { saved := state.connection.schemas }
    (.ok (), state.withConnection { state.connection with transaction := some transaction })

/-- The state with no transaction open, and with the given file. -/
def ended (state : State) (file : File) : State where
  file := file
  connection := { state.connection with transaction := none }

/-- Ends a transaction; what it has changed is there for all. -/
def commit (state : State) : Except Fault Unit × State :=
  let file := state.file
  match state.connection.transaction with
  | none => (.error { text := "cannot commit - no transaction is active" }, state)
  | some { use := .none, .. } => (.ok (), state.ended file)
  | some { use := .reading, .. } =>
      (.ok (), state.ended { file with readers := file.readers - 1 })
  | some { use := .writing contents, .. } =>
      if file.readers ≠ 0 then
        (.error busy, { state with file := { file with writer := .waiting } })
      else (.ok (), state.ended { file with contents, writer := .nobody })

/-- The connection's own schemas as they were before its transaction. Those that were attached
since are empty. -/
def restored (saved schemas : List (String × Contents)) : List (String × Contents) :=
  schemas.map fun (name, _) =>
    match saved.lookup name with
    | some contents => (name, contents)
    | none => (name, {})

/-- Ends a transaction; nothing has changed. -/
def rollback (state : State) : Except Fault Unit × State :=
  let file := state.file
  match state.connection.transaction with
  | none => (.error { text := "cannot rollback - no transaction is active" }, state)
  | some transaction =>
      let schemas := restored transaction.saved state.connection.schemas
      let state := state.withConnection { state.connection with schemas }
      match transaction.use with
      | .none => (.ok (), state.ended file)
      | .reading => (.ok (), state.ended { file with readers := file.readers - 1 })
      | .writing _ => (.ok (), state.ended { file with writer := .nobody })

def attach (schema : String) (state : State) : Except Fault Unit × State :=
  let isTaken := Identifier.same schema mainSchema || (state.ownSchema? schema).isSome
  -- Ten schemas may be attached, besides the temporary one.
  if 10 < state.connection.schemas.length then
    (.error { text := "too many attached databases - max 10" }, state)
  else if isTaken then (.error { text := s!"database {schema} is already in use" }, state)
  else
    let schemas := state.connection.schemas ++ [(schema, ({ } : Contents))]
    (.ok (), state.withConnection { state.connection with schemas })

end State

end Rollout.Sqlite
