import Rollout.Text.Pieces
import Rollout.Name

/-!
Relative paths, with slashes between their segments.
-/

namespace Rollout.Path

def segments (path : String) : List String := Text.splitAt '/' path

/-- The segments that lead somewhere: neither empty nor a single dot. -/
def steps (path : String) : List String :=
  (segments path).filter fun segment => segment != "" && segment != "."

/-- Does the path start at the root of the file system? -/
def isAbsolute (path : String) : Bool := path.toList.head? == some '/'

/-- What a file system reads a path as, one after another. -/
inductive Component where
  | root
  /-- A single dot. -/
  | here
  /-- Two dots. -/
  | above
  | name (text : String)
deriving DecidableEq, Repr

/-- A segment that is empty or a single dot says nothing. -/
def component? (segment : String) : Option Component :=
  if segment = "" ∨ segment = "." then none
  else if segment = ".." then some .above
  else some (.name segment)

/-- A relative path that starts with a single dot says so. -/
def components (path : String) : List Component :=
  let parts := segments path
  let said := parts.filterMap component?
  if isAbsolute path then .root :: said
  else if parts.head? = some "." then .here :: said
  else said

def endsInSlash (path : String) : Bool := path.toList.getLast? == some '/'

def ofSegments (segments : List String) : String := "/".intercalate segments

def dropSlashes (path : String) : String :=
  String.ofList (path.toList.reverse.dropWhile (· == '/')).reverse

/-- A name inside a directory. The empty path and a single dot are the root. -/
def join (directory name : String) : String :=
  let directory := dropSlashes directory
  if directory = "" ∨ directory = "." then name else directory ++ "/" ++ name

/-- The path of letters without leading pairs of a dot and a slash. -/
def dropDotChars : List Char → List Char
  | '.' :: '/' :: rest => dropDotChars rest
  | path => path

def dropDots (path : String) : String := String.ofList (dropDotChars path.toList)

/-- The last segment, slashes at the end not counted. -/
def baseName (path : String) : String := (segments (dropSlashes path)).getLastD path

/-- The part before the last slash and the part after it; a path without a slash has no
directory. -/
def splitFile (path : String) : String × String :=
  match Text.cutLast '/' path.toList with
  | some (directory, file) => (String.ofList directory, String.ofList file)
  | none => ("", path)

def fileName (path : String) : String := (splitFile path).2

/-- The file name up to its first dot. -/
def stem (path : String) : String := (Text.splitAt '.' (fileName path)).headD ""

def extension? (path : String) : Option String :=
  (Text.cutLast '.' (fileName path).toList).map fun (_, after) => String.ofList after

/-- The schema and the item of a path below `schemas`: its second segment, and its fourth up to
the first dot. -/
def schemaItem? (path : String) : Option (String × String) :=
  match segments path with
  | "schemas" :: schema :: _ :: file :: _ =>
      let item := (Text.splitAt '.' file).headD ""
      if schema = "" ∨ item = "" then none else some (schema, item)
  | _ => none

def isWildcard (segment : String) : Bool :=
  segment.toList.any fun c => c == '?' || c == '*' || c == '\x7b'

end Rollout.Path
