import Rollout.Folder
import Rollout.Source.Error

/-!
A source tree on disk. Its paths follow the file system: empty segments and single dots lead
nowhere, and a folder that is missing has no entries.
-/

namespace Rollout.Source

/-- A folder on disk, by the path it was opened with. -/
structure Disk where
  root : String
  place : Place
deriving Repr

namespace Disk

def push (path name : String) : String :=
  if path = "" ∨ Path.endsInSlash path then path ++ name else path ++ "/" ++ name

/-- The names that components lead through, unless one of them could lead elsewhere. -/
def namesOf : List Path.Component → Option (List String)
  | [] => some []
  | .here :: rest => namesOf rest
  | .name text :: rest => (namesOf rest).map (text :: ·)
  | .root :: _ | .above :: _ => none

/-- The names a path leads through; refused if it could lead out of the tree. -/
def resolve (path : String) : Except SourceError (List String) :=
  match namesOf (Path.components path) with
  | some names => .ok names
  | none => .error (.outsideRoot path)

/-- The full path of the file that names lead to. -/
def fullPath (disk : Disk) (names : List String) : String := names.foldl push disk.root

def reach (disk : Disk) (names : List String) : Place :=
  match disk.place with
  | .node node => node.walk names
  | other => other

def entries (disk : Disk) (directory : String) : Except SourceError (List Entry) :=
  match resolve directory with
  | .error error => .error error
  | .ok names =>
      if directory.toList.contains '\x00' then .error (.file (disk.fullPath names) .nulByte)
      else match disk.reach names with
        | .node (.folder folder) => .ok folder.entries
        | _ => .ok []

def read (disk : Disk) (path : String) : Except SourceError String :=
  match resolve path with
  | .error error => .error error
  | .ok names =>
      let fault (fault : FileFault) : Except SourceError String :=
        .error (.file (disk.fullPath names) fault)
      if path.toList.contains '\x00' then fault .nulByte
      else match disk.reach names with
        | .node (.file (.text text)) => .ok text
        | .node (.file (.binary _)) => fault .invalidText
        | .node (.folder _) => fault .isADirectory
        | .blocked => fault .notADirectory
        | .nothing => .error (.notFound path)

def localFile (disk : Disk) (path : String) : Except SourceError LocalFile :=
  match resolve path with
  | .error error => .error error
  | .ok names =>
      match disk.reach names with
      | .node (.file content) => .ok ⟨disk.fullPath names, content, false⟩
      | _ => .error (.notFound path)

end Disk

end Rollout.Source
