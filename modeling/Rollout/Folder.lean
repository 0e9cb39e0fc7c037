import Rollout.Content
import Rollout.Path

/-!
Folders: what a directory holds, by name, at any depth. The names in a folder that `put` builds
ascend and are distinct.
-/

namespace Rollout

inductive Folder where
  | nil
  | file (name : String) (content : Content) (beside : Folder)
  | folder (name : String) (below beside : Folder)
deriving DecidableEq, Repr

inductive Node where
  | file (content : Content)
  | folder (folder : Folder)
deriving DecidableEq, Repr

inductive Place where
  | nothing
  /-- A file stands where a folder is needed. -/
  | blocked
  | node (node : Node)
deriving DecidableEq, Repr

structure Entry where
  name : String
  isFolder : Bool
deriving DecidableEq, Repr

namespace Folder

/-- The folder without its first name, with this one instead. -/
def cons (name : String) (node : Node) (beside : Folder) : Folder :=
  match node with
  | .file content => file name content beside
  | .folder below => folder name below beside

def entries : Folder → List Entry
  | nil => []
  | file name _ beside => ⟨name, false⟩ :: entries beside
  | folder name _ beside => ⟨name, true⟩ :: entries beside

def find? (wanted : String) : Folder → Option Node
  | nil => none
  | file name content beside => if name = wanted then some (.file content) else find? wanted beside
  | folder name below beside => if name = wanted then some (.folder below) else find? wanted beside

def put (name : String) (node : Node) : Folder → Folder
  | nil => cons name node nil
  | file other content beside =>
      if name = other then cons name node beside
      else if name < other then cons name node (file other content beside)
      else file other content (put name node beside)
  | folder other below beside =>
      if name = other then cons name node beside
      else if name < other then cons name node (folder other below beside)
      else folder other below (put name node beside)

/-- The folder a name stands for; an empty one if the name stands for none. -/
def child (top : Folder) (name : String) : Folder :=
  match top.find? name with
  | some (.folder below) => below
  | _ => nil

/-- Gives a path a new meaning, with folders on the way as needed. -/
def putAt (node : Node) : List String → Folder → Folder
  | [], top => top
  | [name], top => top.put name node
  | name :: rest, top => top.put name (.folder (putAt node rest (top.child name)))

def makeFolder : List String → Folder → Folder
  | [], top => top
  | name :: rest, top => top.put name (.folder (makeFolder rest (top.child name)))

def height : Folder → Nat
  | nil => 0
  | file _ _ beside => height beside
  | folder _ below beside => max (height below + 1) (height beside)

end Folder

def Node.walk : List String → Node → Place
  | [], node => .node node
  | _ :: _, .file _ => .blocked
  | name :: rest, .folder top =>
      match top.find? name with
      | none => .nothing
      | some node => walk rest node

def Folder.subfolder? (folder : Folder) (names : List String) : Option Folder :=
  match (Node.folder folder).walk names with
  | .node (.folder below) => some below
  | _ => none

end Rollout
