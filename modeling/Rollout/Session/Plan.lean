import Rollout.Grammar.Builtin
import Rollout.Session.Execute

/-!
Planning text in a session: all of its commands are queued, or none.
-/

namespace Rollout.Session

variable {State : Type}

/-- Plans one command, on the source tree at its ref. -/
def planCommand (database : Database State) (world : World) (command : Command)
    (session : Session State) : Except PlanError Nat × Session State :=
  match session.tree world command.ref with
  | (.error error, session) => (.error (.registry error), session)
  | (.ok tree, session) =>
      let planner : Planner := {
        grammar := Grammar.builtin
        snapshot := tree.snapshot world.workspace
        ref := command.ref
        autoTransaction := session.context.autoTransaction }
      let (plan, after) := (planner.plan command).settle (some database) session.database
      let (result, context) := session.context.takePlan plan
      (result, { session with context, database := after })

/-- Plans commands in order up to the first that has no plan; tells how many steps were
queued. -/
def planCommands (database : Database State) (world : World) :
    List Command → Session State → Except PlanError Nat × Session State
  | [], session => (.ok 0, session)
  | command :: rest, session =>
      match session.planCommand database world command with
      | (.error error, session) => (.error error, session)
      | (.ok count, session) =>
          let (more, session) := planCommands database world rest session
          (more.map (count + ·), session)

/-- Plans the commands of a text and queues their steps. If one has no plan, the queue stays as
it was. -/
def plan (database : Database State) (world : World) (text : String)
    (session : Session State) : Except SessionError Nat × Session State :=
  match Command.parse Grammar.builtin text with
  | .error error => (.error (.parse error), session)
  | .ok commands =>
      let length := session.context.queue.length
      match session.planCommands database world commands with
      | (.ok count, session) => (.ok count, session)
      | (.error error, session) =>
          (.error (.plan error), session.withContext (session.context.truncate length))

/-- Plans a text and runs it, together with whatever waits already. -/
def run (database : Database State) (surroundings : Surroundings) (text : String)
    (session : Session State) : Except SessionError Nat × Session State :=
  match session.plan database (surroundings 0) text with
  | (.error error, session) => (.error error, session)
  | (.ok _, session) => session.execute database surroundings

/-- Opens the source and the database that settings name. The source is read when it is
needed. -/
def openWith (registry : Registry State) (settings : Settings) :
    Except SessionError (Session State) := do
  let context ← (Context.ofSettings settings).mapError .settings
  let source ← settings.sourceLocation.mapError .settings
  let location ← settings.databaseLocation.mapError .settings
  let database ← (registry.openDatabase location).mapError .registry
  return { context, sources := { drivers := registry.sources, base := source }, database }

/-- Closes the database, after rolling back a transaction that is still open. -/
def close (database : Database State) (session : Session State) :
    Except SessionError Unit × Session State :=
  let finish (session : Session State) : Except SessionError Unit × Session State :=
    match session.call database .close with
    | (.error error, session) => (.error (.database error), session)
    | (.ok (), session) => (.ok (), session)
  if database.inTransaction session.database then
    let session := session.warn "rolling back transaction left open at close" [] .session
    match session.call database .rollback with
    | (.error error, session) => (.error (.database error), session)
    | (.ok (), session) => finish session
  else finish session

end Rollout.Session
