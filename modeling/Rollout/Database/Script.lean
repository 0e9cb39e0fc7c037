import Rollout.Database
import Rollout.Text.Blank
import Rollout.Text.Pieces

/-!
Scripted databases. They answer from a script, fail where it says so, and write down every call;
they keep no data, only whether they are locked, closed or in a transaction.
-/

namespace Rollout

namespace Database

def Call.name : Call → String
  | lock => "lock"
  | unlock => "unlock"
  | begin => "begin"
  | commit => "commit"
  | rollback => "rollback"
  | exec _ => "exec"
  | loadCsv _ _ _ _ => "import_csv"
  | schemaNames => "schema_names"
  | foreignKeys => "foreign_keys"
  | schemaItems _ _ => "schema_items"
  | currentUser => "current_user"
  | recordAudit _ => "record_audit"
  | close => "close"

def Call.subject : Call → String
  | exec sql => sql
  | loadCsv _ schema table _ => schema ++ "." ++ table
  | schemaItems schema _ => schema
  | recordAudit entry => entry.command
  | _ => ""

end Database

namespace Script

/-- Calls that fail: those of a name whose subjects hold a text, but not the first of them, and
perhaps only some. -/
structure Rule where
  call : String
  part : String := ""
  /-- How many of the calls still succeed. -/
  after : Nat := 0
  /-- How many fail then; all that follow if there is no number. -/
  times : Option Nat := none
  error : DatabaseError
deriving Repr

def Rule.fits (rule : Rule) (call : Database.Call) : Bool :=
  rule.call == call.name && Text.occurs rule.part.toList call.subject.toList

/-- Does the call fail that is the rule's `number`th, from 1? -/
def Rule.failsAt (rule : Rule) (number : Nat) : Bool :=
  rule.after < number &&
    match rule.times with
    | none => true
    | some times => number ≤ rule.after + times

/-- A rule and how many calls it was about so far. -/
abbrev Count := Rule × Nat

/-- Counts a call with every rule it fits, up to the first that makes it fail. -/
def count (call : Database.Call) : List Count → Option DatabaseError × List Count
  | [] => (none, [])
  | (rule, number) :: rest =>
      if rule.fits call then
        if rule.failsAt (number + 1) then (some rule.error, (rule, number + 1) :: rest)
        else
          let (error, rest) := count call rest
          (error, (rule, number + 1) :: rest)
      else
        let (error, rest) := count call rest
        (error, (rule, number) :: rest)

/-- A call and, if it failed, why. -/
structure Answered where
  call : Database.Call
  error : Option DatabaseError
deriving Repr

/-- What the script says, and where the database stands. -/
structure State where
  schemas : List String := []
  items : List SchemaItem := []
  foreignKeys : List ForeignKey := []
  user : Option String := none
  rules : List Count := []
  locked : Bool := false
  inTransaction : Bool := false
  closed : Bool := false
  /-- The calls so far, in order. -/
  calls : List Answered := []
deriving Repr

def setTransaction (isOpen : Bool) (state : State) : Except DatabaseError Unit × State :=
  if isOpen && state.inTransaction then
    (.error (.transaction "a transaction is already open"), state)
  else if !isOpen && !state.inTransaction then
    (.error (.transaction "no transaction is open"), state)
  else (.ok (), { state with inTransaction := isOpen })

/-- Statements do nothing, except for those that open or close a transaction. -/
def exec (sql : String) (state : State) : Except DatabaseError Unit × State :=
  match Text.trimmed sql with
  | "BEGIN;" => setTransaction true state
  | "COMMIT;" | "ROLLBACK;" => setTransaction false state
  | _ => (.ok (), state)

def effect : (call : Database.Call) → State → Except DatabaseError call.Reply × State
  | .lock, state =>
      if state.locked then (.error (.lock "lock already held by this connection"), state)
      else (.ok (), { state with locked := true })
  | .unlock, state =>
      if state.locked then (.ok (), { state with locked := false })
      else (.error (.lock "lock is not held"), state)
  | .begin, state => setTransaction true state
  | .commit, state => setTransaction false state
  | .rollback, state => setTransaction false state
  | .exec sql, state => exec sql state
  | .loadCsv file _ _ _, state =>
      (.ok ((Text.lines file.content.shown).length - 1), state)
  | .schemaNames, state => (.ok state.schemas, state)
  | .foreignKeys, state => (.ok state.foreignKeys, state)
  | .schemaItems schema kind, state =>
      let wanted (item : SchemaItem) : Bool :=
        item.schema == schema && (kind == none || kind == some item.kind)
      (.ok (state.items.filter wanted), state)
  | .currentUser, state => (.ok state.user, state)
  | .recordAudit _, state => (.ok (), state)
  | .close, state => (.ok (), { state with closed := true })

def answer (call : Database.Call) (state : State) : Except DatabaseError call.Reply × State :=
  if state.closed then (.error (.driver "connection is closed"), state)
  else
    let (error, rules) := count call state.rules
    match error with
    | some error => (.error error, { state with rules })
    | none => effect call { state with rules }

def perform (call : Database.Call) (state : State) : Except DatabaseError call.Reply × State :=
  let (reply, after) := answer call state
  let error := match reply with
    | .ok _ => none
    | .error error => some error
  (reply, { after with calls := after.calls ++ [⟨call, error⟩] })

def database : Database State where
  perform := perform
  inTransaction := (·.inTransaction)

end Script

end Rollout
