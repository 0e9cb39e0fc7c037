/-!
Why a source tree could not be read.
-/

namespace Rollout

inductive FileFault where
  | noSuchFile
  | notADirectory
  | isADirectory
  | invalidText
  | nulByte
deriving DecidableEq, Repr

def FileFault.message : FileFault → String
  | noSuchFile => "No such file or directory (os error 2)"
  | notADirectory => "Not a directory (os error 20)"
  | isADirectory => "Is a directory (os error 21)"
  | invalidText => "stream did not contain valid UTF-8"
  | nulByte => "file name contained an unexpected NUL byte"

inductive SourceError where
  | file (path : String) (fault : FileFault)
  | notFound (path : String)
  | git (text : String)
  /-- The path leads out of the tree. -/
  | outsideRoot (path : String)
deriving DecidableEq, Repr

def SourceError.message : SourceError → String
  | file path fault => s!"I/O error on {path}: {fault.message}"
  | notFound path => s!"source file not found: {path}"
  | git text => s!"git error: {text}"
  | outsideRoot path => s!"path escapes the source root: {path}"

end Rollout
