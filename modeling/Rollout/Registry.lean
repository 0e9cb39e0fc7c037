import Rollout.Database
import Rollout.Text.Ordered
import Rollout.Text.Shown
import Rollout.Tree

/-!
Registries: which driver opens the locations of which scheme.
-/

namespace Rollout

inductive DriverKind where
  | source
  | database
deriving DecidableEq, Repr

def DriverKind.name : DriverKind → String
  | source => "source"
  | database => "database"

inductive RegistryError where
  | unknownScheme (kind : DriverKind) (scheme : String)
  | invalidLocation (text : String)
  | source (error : SourceError)
  | database (error : DatabaseError)
deriving DecidableEq, Repr

def RegistryError.message : RegistryError → String
  | unknownScheme kind scheme => s!"no {kind.name} driver registered for scheme '{scheme}'"
  | invalidLocation text => s!"invalid location '{text}'"
  | source error => error.message
  | database error => error.message

def Location.ofText (text : String) : Except RegistryError Location :=
  (Location.parse text).mapError .invalidLocation

abbrev SourceDriver := Workspace → Location → Except RegistryError Tree

/-- Opens a database, whose states have the given type. -/
abbrev DatabaseDriver (State : Type) := Location → Except RegistryError State

/-- Drivers by scheme; the schemes ascend. -/
structure Registry (State : Type) where
  sources : List (String × SourceDriver) := []
  databases : List (String × DatabaseDriver State) := []

namespace Registry

variable {State : Type}

/-- Registers a driver, in place of one with the same scheme. Case does not count. -/
def registerSource (registry : Registry State) (scheme : String) (driver : SourceDriver) :
    Registry State :=
  { registry with
    sources := Text.insertEntry (scheme.map Char.toLower) driver registry.sources }

def registerDatabase (registry : Registry State) (scheme : String)
    (driver : DatabaseDriver State) : Registry State :=
  { registry with
    databases := Text.insertEntry (scheme.map Char.toLower) driver registry.databases }

def openSource (registry : Registry State) (workspace : Workspace) (location : Location) :
    Except RegistryError Tree :=
  match registry.sources.lookup location.scheme with
  | none => .error (.unknownScheme .source location.scheme)
  | some driver => driver workspace location

def openDatabase (registry : Registry State) (location : Location) :
    Except RegistryError State :=
  match registry.databases.lookup location.scheme with
  | none => .error (.unknownScheme .database location.scheme)
  | some driver => driver location

def sourceSchemes (registry : Registry State) : List String := registry.sources.map (·.1)

def databaseSchemes (registry : Registry State) : List String := registry.databases.map (·.1)

/-- The schemes, for someone who looks for faults. -/
def shown (registry : Registry State) : String :=
  let schemes (names : List String) := Text.Shown.bracketed (names.map Text.Shown.quoted)
  "Registry \x7b sources: " ++ schemes registry.sourceSchemes ++ ", databases: " ++
    schemes registry.databaseSchemes ++ " \x7d"

end Registry

/-- Opens what a location asks for: a revision if it names a ref or has the scheme of
repositories, else a folder on disk. -/
def Tree.ofLocation (workspace : Workspace) (location : Location) : Except RegistryError Tree :=
  if location.scheme = "git" ∨ (location.scheme = "file" ∧ location.fragment.isSome) then
    (openRevision workspace location).mapError .source
  else if location.scheme = "file" then (openDisk workspace location).mapError .source
  else .error (.unknownScheme .source location.scheme)

def Registry.withTrees {State : Type} (registry : Registry State) : Registry State :=
  (registry.registerSource "file" Tree.ofLocation).registerSource "git" Tree.ofLocation

end Rollout
