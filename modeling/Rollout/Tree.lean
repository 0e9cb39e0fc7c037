import Rollout.Location
import Rollout.Source.Disk
import Rollout.Source.Revision
import Rollout.Workspace

/-!
Source trees: a folder on disk or at a ref, read by path and listed by name.
-/

namespace Rollout

structure FileEntry where
  path : String
  name : String
deriving DecidableEq, Repr

/-- A folder and, if it was read at full depth, what is below it. -/
inductive Listing where
  | mk (path name : String) (files : List FileEntry) (folders : List Listing)
deriving Repr, Inhabited

namespace Listing

def path : Listing → String
  | mk path _ _ _ => path

def name : Listing → String
  | mk _ name _ _ => name

def files : Listing → List FileEntry
  | mk _ _ files _ => files

def folders : Listing → List Listing
  | mk _ _ _ folders => folders

mutual

def fileCount : Listing → Nat
  | mk _ _ files folders => files.length + fileCountAll folders

def fileCountAll : List Listing → Nat
  | [] => 0
  | listing :: rest => fileCount listing + fileCountAll rest

end

end Listing

inductive Snapshot where
  | disk (disk : Source.Disk)
  | revision (revision : Source.Revision)
deriving Repr

namespace Snapshot

def place : Snapshot → Place
  | disk view => view.place
  | revision view => view.place

/-- The names in a directory; there are none in one that is missing. -/
def entries : Snapshot → String → Except SourceError (List Entry)
  | disk view, directory => view.entries directory
  | revision view, directory => view.entries directory

def read : Snapshot → String → Except SourceError String
  | disk view, path => view.read path
  | revision view, path => view.read path

/-- A file on the local file system with what the path holds. -/
def localFile : Snapshot → String → Except SourceError LocalFile
  | disk view, path => view.localFile path
  | revision view, path => view.localFile path

/-- The files in a directory whose names are accepted, ascending by name. -/
def files (snapshot : Snapshot) (directory : String) (accepts : String → Bool) :
    Except SourceError (List FileEntry) :=
  (snapshot.entries directory).map fun entries =>
    (entries.filter fun entry => !entry.isFolder && accepts entry.name).map fun entry =>
      ⟨Path.join directory entry.name, entry.name⟩

/-- The folders in a directory whose names are accepted, ascending by name. -/
def folders (snapshot : Snapshot) (directory : String) (accepts : String → Bool) :
    Except SourceError (List FileEntry) :=
  (snapshot.entries directory).map fun entries =>
    (entries.filter fun entry => entry.isFolder && accepts entry.name).map fun entry =>
      ⟨Path.join directory entry.name, entry.name⟩

def height (snapshot : Snapshot) : Nat :=
  match snapshot.place with
  | .node (.folder folder) => folder.height
  | _ => 0

/-- Lists each of the folders with the given function, in order. -/
def listEach (list : String → Except SourceError Listing) :
    List String → Except SourceError (List Listing)
  | [] => .ok []
  | directory :: rest =>
      match list directory with
      | .error error => .error error
      | .ok listing => (listEach list rest).map (listing :: ·)

def listTo (snapshot : Snapshot) (accepts : String → Bool) :
    Nat → String → Except SourceError Listing
  | depth, directory =>
      match snapshot.entries directory with
      | .error error => .error error
      | .ok entries =>
          let paths (wanted : List Entry) : List FileEntry :=
            wanted.map fun entry => ⟨Path.join directory entry.name, entry.name⟩
          let found := paths (entries.filter fun entry => !entry.isFolder && accepts entry.name)
          let below := (paths (entries.filter (·.isFolder))).map (·.path)
          let name := Path.baseName directory
          match depth with
          | 0 => .ok (.mk directory name found [])
          | depth + 1 =>
              (listEach (snapshot.listTo accepts depth) below).map fun listings =>
                .mk directory name found listings

/-- Lists a directory at full depth. Every file counts whose name is accepted, every folder
counts. -/
def list (snapshot : Snapshot) (directory : String) (accepts : String → Bool) :
    Except SourceError Listing :=
  snapshot.listTo accepts snapshot.height directory

end Snapshot

/-- An opened source tree: where it was opened, and at which ref if not on disk. -/
structure Tree where
  location : Location
  ref : Option String
deriving DecidableEq, Repr

namespace Tree

/-- The ref of a location that names none but asks for one. -/
def defaultRef : String := "HEAD"

def placeAt (folder : Folder) (names : Option (List String)) : Place :=
  match names with
  | some names => (Node.folder folder).walk names
  | none => .nothing

def snapshot (tree : Tree) (workspace : Workspace) : Snapshot :=
  let names := workspace.locate tree.location.path
  match tree.ref with
  | none => .disk ⟨tree.location.path, placeAt workspace.disk names⟩
  | some ref =>
      .revision ⟨ref, placeAt ((workspace.commit? ref).getD .nil) names⟩

def openDisk (workspace : Workspace) (location : Location) : Except SourceError Tree :=
  match workspace.locate location.path with
  | none => .error (.notFound location.path)
  | some _ => .ok ⟨location, none⟩

def openRevision (workspace : Workspace) (location : Location) : Except SourceError Tree :=
  match workspace.locate location.path with
  | none => .error (.notFound location.path)
  | some _ =>
      let ref := location.fragment.getD defaultRef
      match workspace.commit? ref with
      | none => .error (.git s!"unknown ref '{ref}' in {location.path}")
      | some _ => .ok ⟨location, some ref⟩

end Tree

end Rollout
