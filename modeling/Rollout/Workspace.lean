import Rollout.Folder
import Rollout.Source.Error

/-!
A working directory: what is on disk, and what has been committed under which ref. Commits hold
files by their paths from the working directory.
-/

namespace Rollout

structure Workspace where
  disk : Folder := .nil
  commits : List (String × Folder) := []
deriving Repr

namespace Workspace

def commit? (workspace : Workspace) (ref : String) : Option Folder := workspace.commits.lookup ref

/-- Follows the segments of a path through the folders on disk. The names on the way to where it
stands are kept last first. -/
def locateFrom (disk : Folder) (passed : List String) : List String → Option (List String)
  | [] => some passed.reverse
  | segment :: rest =>
      if segment = "" ∨ segment = "." then locateFrom disk passed rest
      else if segment = ".." then
        match passed with
        | [] => none
        | _ :: above => locateFrom disk above rest
      else if (disk.subfolder? (segment :: passed).reverse).isSome then
        locateFrom disk (segment :: passed) rest
      else none

/-- The names that lead to the folder on disk that a relative path names. -/
def locate (workspace : Workspace) (path : String) : Option (List String) :=
  if Path.isAbsolute path then none else locateFrom workspace.disk [] (Path.segments path)

/-- Follows the segments of a path to whatever is there on disk. -/
def placeFrom (disk : Folder) (passed : List String) : List String → Place
  | [] => (Node.folder disk).walk passed.reverse
  | segment :: rest =>
      match (Node.folder disk).walk passed.reverse with
      | .node (.folder _) =>
          if segment = "" ∨ segment = "." then placeFrom disk passed rest
          else if segment = ".." then
            match passed with
            | [] => .nothing
            | _ :: above => placeFrom disk above rest
          else placeFrom disk (segment :: passed) rest
      | .node (.file _) => .blocked
      | other => other

def place (workspace : Workspace) (path : String) : Place :=
  if path = "" ∨ Path.isAbsolute path then .nothing
  else placeFrom workspace.disk [] (Path.segments path)

def content (workspace : Workspace) (path : String) : Except FileFault Content :=
  match workspace.place path with
  | .nothing => .error .noSuchFile
  | .blocked => .error .notADirectory
  | .node (.folder _) => .error .isADirectory
  | .node (.file content) => .ok content

def readText (workspace : Workspace) (path : String) : Except FileFault String := do
  match ← workspace.content path with
  | .text text => return text
  | .binary _ => throw .invalidText

/-- The path of the directory that holds what a path names, and its name there. -/
def folderAndName (path : String) : String × String :=
  match Text.cutLast '/' path.toList with
  | some (directory, name) => (String.ofList directory, String.ofList name)
  | none => (".", path)

/-- The names that lead to where a file can be opened, or made if there is none. -/
def fileNames (workspace : Workspace) (path : String) : Except FileFault (List String) :=
  let (directory, name) := folderAndName path
  match workspace.place path with
  | .node (.folder _) => .error .isADirectory
  | .blocked => .error .notADirectory
  | _ =>
      match workspace.locate directory with
      | none => .error .noSuchFile
      | some names =>
          if path = "" then .error .noSuchFile
          else if name = "" then .error .isADirectory
          else .ok (names ++ [name])

def write (workspace : Workspace) (path text : String) : Except FileFault Workspace :=
  (workspace.fileNames path).map fun names =>
    { workspace with disk := workspace.disk.putAt (.file (.text text)) names }

end Workspace

end Rollout
