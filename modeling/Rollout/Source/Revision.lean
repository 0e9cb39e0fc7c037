import Rollout.Folder
import Rollout.Source.Error

/-!
A source tree at a ref. What it lists and holds is what the commit holds; nothing on disk
counts. Listings show paths as they are, or, if they hold characters that are not plain, in double
quotes with escapes.
-/

namespace Rollout.Source

namespace Listed

/-- The letter that stands for a character after a backslash. -/
def letter? : Char → Option Char
  | '\x07' => some 'a'
  | '\x08' => some 'b'
  | '\t' => some 't'
  | '\n' => some 'n'
  | '\x0b' => some 'v'
  | '\x0c' => some 'f'
  | '\r' => some 'r'
  | '"' => some '"'
  | '\\' => some '\\'
  | _ => none

def isPlain (c : Char) : Bool :=
  0x20 ≤ c.toNat && c.toNat < 0x7F && c != '"' && c != '\\'

def octal (byte : Nat) : List Char :=
  ['\\', Nat.digitChar (byte / 64), Nat.digitChar (byte / 8 % 8), Nat.digitChar (byte % 8)]

def escape (c : Char) : List Char :=
  if isPlain c then [c]
  else match letter? c with
    | some letter => ['\\', letter]
    | none => (String.utf8EncodeChar c).flatMap fun byte => octal byte.toNat

def written (path : String) : String :=
  if path.toList.all isPlain then path
  else String.ofList ('"' :: (path.toList.flatMap escape ++ ['"']))

end Listed

/-- A folder of a commit, by the ref that was asked for. -/
structure Revision where
  ref : String
  place : Place
deriving Repr

namespace Revision

/-- Refuses a path that could lead out of the tree. -/
def checkRelative (path : String) : Except SourceError Unit :=
  if Path.isAbsolute path ∨ (Path.segments path).any (· == "..") then .error (.outsideRoot path)
  else if path.toList.contains '\x00' then
    .error (.git "failed to run git: nul byte found in provided data")
  else .ok ()

def reach (revision : Revision) (names : List String) : Place :=
  match revision.place with
  | .node node => node.walk names
  | other => other

/-- Names come from a listing of full paths, of which the last segment is taken. -/
def listedName (names : List String) (name : String) : String :=
  Path.baseName (Listed.written (Path.ofSegments (names ++ [name])))

def entries (revision : Revision) (directory : String) : Except SourceError (List Entry) :=
  match checkRelative directory with
  | .error error => .error error
  | .ok () =>
      let names := Path.steps directory
      match revision.reach names with
      | .node (.folder folder) =>
          let listed := folder.entries.map fun entry =>
            { entry with name := listedName names entry.name }
          .ok (listed.mergeSort fun first second => decide (first.name ≤ second.name))
      | _ => .ok []

/-- A folder shows as a list of its names, folders marked by a slash. -/
def showFolder (revision : Revision) (path : String) (folder : Folder) : String :=
  let names := folder.entries.map fun entry =>
    if entry.isFolder then entry.name ++ "/" else entry.name
  let lines := (names.mergeSort fun first second => decide (first ≤ second)).map (· ++ "\n")
  s!"tree {revision.ref}:./{path}\n\n" ++ String.join lines

/-- What a path shows. A slash at its end asks for a folder. -/
def contents (revision : Revision) (path : String) : Except SourceError Content :=
  match checkRelative path with
  | .error error => .error error
  | .ok () =>
      let missing : Except SourceError Content := .error (.notFound s!"{path}#{revision.ref}")
      match revision.reach (Path.steps path) with
      | .node (.folder folder) => .ok (.text (revision.showFolder path folder))
      | .node (.file content) => if Path.endsInSlash path then missing else .ok content
      | _ => missing

def read (revision : Revision) (path : String) : Except SourceError String :=
  match revision.contents path with
  | .error error => .error error
  | .ok (.text text) => .ok text
  | .ok (.binary _) => .error (.git s!"{path} is not valid UTF-8")

def localFile (revision : Revision) (path : String) : Except SourceError LocalFile :=
  (revision.contents path).map fun content => ⟨path, content, true⟩

end Revision

end Rollout.Source
