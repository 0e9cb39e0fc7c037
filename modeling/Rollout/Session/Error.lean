import Rollout.Plan.Error
import Rollout.Settings.Basic
import Rollout.Shell.Basic

/-!
What can go wrong in a session.
-/

namespace Rollout

inductive RunError where
  | sql (origin : String) (error : DatabaseError)
  | load (file : String) (error : DatabaseError)
  | shell (command : String) (status : ExitStatus) (errors : String)
  | notStarted (command : String) (fault : FileFault)
  | output (text : String)
  | transaction (error : TransactionError)
  | database (error : DatabaseError)
  | source (error : SourceError)
  | registry (error : RegistryError)
deriving DecidableEq, Repr

def RunError.message : RunError → String
  | sql origin error => s!"{origin}: {error.message}"
  | load file error => s!"{file}: {error.message}"
  | shell command status errors =>
      s!"shell command '{command}' failed ({status.written})" ++
        if errors = "" then "" else s!": {errors}"
  | notStarted command fault => s!"failed to run '{command}': {fault.message}"
  | output text => s!"output error: {text}"
  | transaction error => error.message
  | database error => error.message
  | source error => error.message
  | registry error => error.message

inductive SessionError where
  | parse (error : ParseError)
  | plan (error : PlanError)
  | run (error : RunError)
  | settings (error : SettingsError)
  | registry (error : RegistryError)
  | database (error : DatabaseError)
deriving DecidableEq, Repr

def SessionError.message : SessionError → String
  | parse error => error.message
  | plan error => error.message
  | run error => error.message
  | settings error => error.message
  | registry error => error.message
  | database error => error.message

end Rollout
