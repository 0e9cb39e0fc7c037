import Rollout.Session.Steps

/-!
Running the steps that wait, all of them or none: with automatic transactions a batch that has
effects is wrapped in one, which is committed at the end and rolled back at the first failure.
Outside dry runs such a batch holds the lock of the database.
-/

namespace Rollout.Session

variable {State : Type}

/-- Runs steps in order up to the first failure. The surroundings change from step to step. -/
def runSteps (database : Database State) (surroundings : Surroundings) :
    Nat → List Step → Session State → Result State Unit
  | _, [], session => (.ok (), session)
  | index, step :: rest, session =>
      match session.runStep database (surroundings index) step with
      | (.error error, session) => (.error error, session)
      | (.ok (), session) => runSteps database surroundings (index + 1) rest session

/-- Rolls back after a failure. Whether that succeeds or not, no transaction counts as open. -/
def abort (database : Database State) (session : Session State) : Session State :=
  if session.context.inTransaction then
    match session.rollback database with
    | (.ok (), session) => session
    | (.error error, session) =>
        (session.warn "rollback after failure did not complete"
          [("error", .plain error.message)]).setTransaction false
  else session

def runWrapped (database : Database State) (surroundings : Surroundings) (steps : List Step)
    (session : Session State) : Result State Unit :=
  match session.begin database with
  | (.error error, session) => (.error error, session)
  | (.ok (), session) =>
      match session.runSteps database surroundings 0 steps with
      | (.error error, session) => (.error error, session.abort database)
      | (.ok (), session) =>
          match session.commit database with
          | (.error error, session) => (.error error, session.abort database)
          | (.ok (), session) => (.ok (), session)

/-- Takes the steps that wait and runs them; tells how many there were. -/
def runQueue (database : Database State) (surroundings : Surroundings)
    (session : Session State) : Result State Nat :=
  let queue := session.context.queue
  let session := session.withContext { session.context.emptied with depth := 0 }
  let (result, session) :=
    if session.context.autoTransaction && queue.effectful then
      session.runWrapped database surroundings queue.steps
    else session.runSteps database surroundings 0 queue.steps
  (result.map fun () => queue.steps.length, session)

/-- Gives the lock back after a run. A failure to do so counts if nothing failed before. -/
def release (database : Database State) (ran : Result State Nat) :
    Except SessionError Nat × Session State :=
  let (result, session) := ran
  match session.call database .unlock with
  | (.ok (), session) => (result.mapError .run, session)
  | (.error error, session) =>
      match result with
      | .ok _ => (.error (.database error), session)
      | .error failure =>
          (.error (.run failure),
            session.warn "failed to release lock" [("error", .plain error.message)] .session)

/-- Runs the steps that wait. Nothing waits afterwards. -/
def execute (database : Database State) (surroundings : Surroundings)
    (session : Session State) : Except SessionError Nat × Session State :=
  if session.context.queue.effectful && !session.context.dryRun then
    match session.call database .lock with
    | (.error error, session) =>
        (.error (.database error), session.withContext session.context.emptied)
    | (.ok (), session) => release database (session.runQueue database surroundings)
  else
    let (result, session) := session.runQueue database surroundings
    (result.mapError .run, session)

end Rollout.Session
