import Rollout.CommandLine.Basic
import Rollout.Shell.Run

/-!
The program. It takes its arguments, its environment and its standard input from the system; it
works in an empty working directory, and programs that it runs are run by the shell of this
library. For other surroundings there is `CommandLine.run`.
-/

namespace Rollout.Program

partial def readAll (stream : IO.FS.Stream) (passed : ByteArray) : IO ByteArray := do
  let bytes ← stream.read 65536
  if bytes.isEmpty then return passed else readAll stream (passed ++ bytes)

/-- Standard input, if the program needs it; nothing if that is a terminal. -/
def standardInput (isNeeded : Bool) : IO (Option Content) := do
  let stream ← IO.getStdin
  if !isNeeded || (← stream.isTty) then return none
  else return some (.ofBytes (← readAll stream ByteArray.empty).toList)

def environment : IO (List (String × String)) := do
  let names := ["DDSL_SOURCE", "DDSL_DATABASE", "RUST_LOG", "USER", "USERNAME"]
  let found ← names.mapM fun name => do return (← IO.getEnv name).map (name, ·)
  return found.filterMap id

end Rollout.Program

def main (arguments : List String) : IO UInt32 := do
  let input ← Rollout.Program.standardInput (Rollout.CommandLine.readsInput arguments)
  let environment ← Rollout.Program.environment
  let world : Rollout.World := { environment, execute := Rollout.Shell.execute }
  let report := Rollout.CommandLine.run arguments { input, worlds := fun _ => world }
  (← IO.getStdout).putStr report.output
  (← IO.getStderr).putStr report.errors
  return report.status.toUInt32
