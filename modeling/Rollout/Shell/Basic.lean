import Rollout.Content
import Rollout.Source.Error

/-!
Running programs: what is asked for and what comes of it.
-/

namespace Rollout

structure Invocation where
  program : String
  arguments : List String
  /-- What the file holds that the only argument names, if it names one. -/
  script : Option Content := none
  environment : List (String × String)
deriving Repr

inductive ExitStatus where
  | exited (code : Nat)
  | killed (signal : Nat)
deriving DecidableEq, Repr

namespace ExitStatus

def succeeded (status : ExitStatus) : Bool := status == .exited 0

def signalNames : List (Nat × String) :=
  [(1, "SIGHUP"), (2, "SIGINT"), (3, "SIGQUIT"), (6, "SIGABRT"), (9, "SIGKILL"),
    (10, "SIGUSR1"), (12, "SIGUSR2"), (13, "SIGPIPE"), (14, "SIGALRM"), (15, "SIGTERM")]

def written : ExitStatus → String
  | exited code => s!"exit status: {code}"
  | killed signal =>
      match signalNames.lookup signal with
      | some name => s!"signal: {signal} ({name})"
      | none => s!"signal: {signal}"

end ExitStatus

inductive Outcome where
  | notStarted (fault : FileFault)
  | ended (status : ExitStatus) (output errors : String)
deriving DecidableEq, Repr

end Rollout
