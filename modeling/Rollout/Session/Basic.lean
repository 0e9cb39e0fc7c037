import Rollout.Context
import Rollout.Log.Entry
import Rollout.Session.Error
import Rollout.Sources
import Rollout.World

/-!
Sessions: one source and one database, with what has been planned, written and logged so far.
-/

namespace Rollout

/-- A session with a database whose states have the given type. -/
structure Session (State : Type) where
  context : Context
  sources : Sources
  database : State
  /-- What list steps have written. -/
  output : String := ""
  log : List LogEntry := []

namespace Session

variable {State : Type}

def logged (session : Session State) (entry : LogEntry) : Session State :=
  { session with log := session.log ++ [entry] }

def info (session : Session State) (message : String) : Session State :=
  session.logged { level := .info, message }

def dryRun (session : Session State) (message : String) : Session State :=
  session.logged { level := .info, message := "DRY-RUN " ++ message, origin := .dryRun }

def warn (session : Session State) (message : String)
    (fields : List (String × LogValue)) (origin : LogOrigin := .steps) : Session State :=
  session.logged { level := .warn, message, fields, origin }

def withContext (session : Session State) (context : Context) : Session State :=
  { session with context }

def setTransaction (session : Session State) (isOpen : Bool) : Session State :=
  session.withContext { session.context with inTransaction := isOpen }

/-- What stands before a message that belongs to nested files. -/
def indent (session : Session State) : String :=
  String.ofList (List.replicate (2 * session.context.depth) ' ')

def call (database : Database State) (call : Database.Call) (session : Session State) :
    Except DatabaseError call.Reply × Session State :=
  let (reply, after) := database.perform call session.database
  (reply, { session with database := after })

/-- The source tree at a ref, opened if needed. -/
def tree (world : World) (ref : Option String) (session : Session State) :
    Except RegistryError Tree × Session State :=
  let (tree, sources) := session.sources.get world.workspace ref
  (tree, { session with sources })

end Session

end Rollout
