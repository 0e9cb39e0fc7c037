import Rollout.Shell.Basic
import Rollout.Workspace

/-!
The surroundings of a run: everything it meets that is neither its own state nor a database.
-/

namespace Rollout

structure World where
  workspace : Workspace := {}
  environment : List (String × String) := []
  /-- What the clock shows. -/
  clock : String := ""
  /-- What programs do. -/
  execute : Invocation → Outcome := fun _ => .notStarted .noSuchFile
  /-- Why output cannot be written, if it cannot. -/
  sinkFault : Option String := none

namespace World

def systemUser (world : World) : Option String :=
  match world.environment.lookup "USER" with
  | some user => some user
  | none => world.environment.lookup "USERNAME"

end World

/-- The surroundings from step to step. -/
abbrev Surroundings := Nat → World

end Rollout
