import Rollout.Content

/-!
Databases. A database answers calls; what it answers and how it changes is up to it.
-/

namespace Rollout

inductive ItemKind where
  | table
  | view
  | function
  | procedure
  | type
deriving DecidableEq, Repr

def ItemKind.name : ItemKind → String
  | table => "table"
  | view => "view"
  | function => "function"
  | procedure => "procedure"
  | type => "type"

structure SchemaItem where
  schema : String
  name : String
  kind : ItemKind
deriving DecidableEq, Repr

structure ForeignKey where
  childSchema : String
  childTable : String
  childColumn : String
  parentSchema : String
  parentTable : String
  parentColumn : String
deriving DecidableEq, Repr

structure AuditEntry where
  command : String
  executedAt : String
  databaseUser : Option String
  systemUser : Option String
deriving DecidableEq, Repr

structure CsvOptions where
  delimiter : Char := ','
  header : Bool := true
deriving DecidableEq, Repr

inductive DatabaseError where
  /-- A statement failed, perhaps at a line and a column of the submitted text. -/
  | statement (text : String) (line column : Option Nat)
  | transaction (text : String)
  | lock (text : String)
  | load (text : String)
  | driver (text : String)
deriving DecidableEq, Repr

def DatabaseError.message : DatabaseError → String
  | statement text (some line) (some column) => s!"{text} (line {line}, column {column})"
  | statement text (some line) none => s!"{text} (line {line})"
  | statement text none _ => text
  | transaction text => s!"transaction error: {text}"
  | lock text => s!"lock error: {text}"
  | load text => "import error: " ++ text
  | driver text => s!"database error: {text}"

namespace Database

inductive Call where
  | lock
  | unlock
  | begin
  | commit
  | rollback
  | exec (sql : String)
  | loadCsv (file : LocalFile) (schema table : String) (options : CsvOptions)
  | schemaNames
  | foreignKeys
  | schemaItems (schema : String) (kind : Option ItemKind)
  | currentUser
  | recordAudit (entry : AuditEntry)
  | close
deriving DecidableEq, Repr

abbrev Call.Reply : Call → Type
  | .loadCsv _ _ _ _ => Nat
  | .schemaNames => List String
  | .foreignKeys => List ForeignKey
  | .schemaItems _ _ => List SchemaItem
  | .currentUser => Option String
  | _ => Unit

end Database

/-- A kind of database, with states of the given type. -/
structure Database (State : Type) where
  perform : (call : Database.Call) → State → Except DatabaseError call.Reply × State
  /-- Is a transaction open? -/
  inTransaction : State → Bool

namespace Database

/-- The same database, which also writes down every call, the latest last. -/
def recorded {State : Type} (database : Database State) : Database (State × List Call) where
  perform call state :=
    let (answer, after) := database.perform call state.1
    (answer, after, state.2 ++ [call])
  inTransaction state := database.inTransaction state.1

end Database

end Rollout
