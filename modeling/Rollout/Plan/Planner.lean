import Rollout.Grammar.Basic
import Rollout.Plan.Draft
import Rollout.Plan.Expand

/-!
What planning a command takes: the source tree, the ref that is recorded with its files, and the
mode of transactions; and the two questions that all commands ask, which files match a kind of
file and which schemas there are.
-/

namespace Rollout

structure Planner where
  grammar : Grammar
  snapshot : Snapshot
  /-- The ref that steps record along with a path. -/
  ref : Option String
  autoTransaction : Bool

namespace Planner

open Plan

def file (planner : Planner) (path : String) : FileRef := ⟨path, planner.ref⟩

/-- The files of a kind. The pattern counts as tried once it could be matched. -/
def resolve (planner : Planner) (kind : FileKind) (verb : Option Verb)
    (schema item : Option String) : Draft (List String) :=
  let verb := if kind.isPrivileges then verb.map Verb.privileges else verb
  match kind.render verb schema item with
  | .error missing => .fail (.missingValue missing)
  | .ok pattern => do
      let found ← .ofSource (expand planner.snapshot pattern)
      Draft.tried pattern
      return found

/-- Plans to execute every file of a kind, and tells which these are. -/
def emitFound (planner : Planner) (kind : FileKind) (verb : Verb) (schema item : Option String) :
    Draft (List String) := do
  let found ← planner.resolve kind (some verb) schema item
  Draft.each (fun path => .step (.execFile (planner.file path))) found
  return found

def emit (planner : Planner) (kind : FileKind) (verb : Verb) (schema item : Option String) :
    Draft Unit :=
  (planner.emitFound kind verb schema item).andThen fun _ => .done ()

def folderNames (planner : Planner) (directory : String) : Draft (List String) :=
  .ofSource ((planner.snapshot.folders directory Glob.anyName).map fun folders =>
    folders.map (·.name))

/-- The schemas of the source tree, ascending. -/
def schemas (planner : Planner) : Draft (List String) := planner.folderNames "schemas"

end Planner

namespace Command

def unknown {Value : Type} (command : Command) : Draft Value :=
  .fail (.unknownCommand command.text)

def splitName (command : Command) (name : String) : Draft (String × String) :=
  match Name.qualified? name with
  | some pair => .done pair
  | none => .fail (.malformedName command.text name)

def filterSchemas (command : Command) (schemas : List String) : List String :=
  let listed := command.schemaNames
  match command.clause with
  | some .within => schemas.filter listed.contains
  | some clause => if clause.isExclusion then schemas.filter (!listed.contains ·) else schemas
  | none => schemas

/-- The filter that left no schema, as it is written. -/
def schemaFilter (command : Command) : String :=
  let listed (clause : Clause) := clause.written ++ " " ++ ",".intercalate command.schemaNames
  match command.clause with
  | some .within => listed .within
  | some .except => listed .except
  | some .exceptIn => listed .exceptIn
  | _ => "schemas/?"

/-- The seed files that the clause leaves. The names of a `with` clause give the order. -/
def selectSeeds (command : Command) (files : List String) : List String :=
  let listed := command.seedNames
  match command.clause with
  | some .withSeeds => listed.flatMap fun name => files.filter fun file => Path.stem file == name
  | some clause =>
      if clause.isExclusion then files.filter fun file => !listed.contains (Path.stem file)
      else files
  | none => files

end Command

end Rollout
