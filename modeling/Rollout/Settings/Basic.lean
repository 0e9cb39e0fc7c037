import Rollout.Registry
import Rollout.Table

/-!
Settings of a run.
-/

namespace Rollout

structure Settings where
  source : Option String := none
  database : Option String := none
  /-- Is a batch with effects wrapped in a transaction? -/
  autoTransaction : Bool := true
  /-- Are effects logged instead of made? -/
  dryRun : Bool := false
  format : Table.Format := .text
deriving DecidableEq, Repr

inductive SettingsError where
  | file (fault : FileFault)
  /-- The file is no settings file. -/
  | malformed
  | missing (kind : DriverKind)
  | location (error : RegistryError)
deriving DecidableEq, Repr

def SettingsError.message : SettingsError → String
  | file fault => s!"I/O error: {fault.message}"
  | malformed => "YAML error"
  | missing kind => s!"no {kind.name} configured"
  | location error => error.message

namespace Settings

/-- The location that a setting spells, which must be there. -/
def requireLocation (kind : DriverKind) : Option String → Except SettingsError Location
  | none => .error (.missing kind)
  | some text => (Location.ofText text).mapError .location

/-- The location that a setting spells, if it is there. -/
def location? : Option String → Except SettingsError (Option Location)
  | none => .ok none
  | some text => ((Location.ofText text).mapError .location).map some

def sourceLocation (settings : Settings) : Except SettingsError Location :=
  requireLocation .source settings.source

def databaseLocation (settings : Settings) : Except SettingsError Location :=
  requireLocation .database settings.database

end Settings

end Rollout
