import Rollout.Glob
import Rollout.Text.Ordered
import Rollout.Tree

/-!
Expanding patterns: the files of a source tree whose paths match a pattern segment by segment. A
directory segment is matched only if it holds a wildcard; the last segment always is.
-/

namespace Rollout.Plan

/-- The results for all values, in order, one after the other. -/
def gather {Value Result Fault : Type} (find : Value → Except Fault (List Result)) :
    List Value → Except Fault (List Result)
  | [] => .ok []
  | value :: rest =>
      match find value with
      | .error fault => .error fault
      | .ok found => (gather find rest).map (found ++ ·)

/-- What a segment stands for among names. A name that holds wildcards itself is matched once
more; `depth` bounds how often. -/
def settleSegment (names : List String) : Nat → String → List String
  | depth, segment =>
      if Path.isWildcard segment then
        match depth with
        | 0 => []
        | depth + 1 =>
            (names.filter (Glob.ofSegment segment).accepts).flatMap (settleSegment names depth)
      else [segment]

/-- The directories that the remaining segments lead to from a directory. -/
def expandFrom (snapshot : Snapshot) (directory : String) :
    List String → Except SourceError (List String)
  | [] => .ok [directory]
  | segment :: rest =>
      if Path.isWildcard segment then
        match snapshot.folders directory fun _ => true with
        | .error error => .error error
        | .ok folders =>
            let names := folders.map (·.name)
            let settled := settleSegment names (names.length + 1) segment
            gather (fun name => expandFrom snapshot (Path.join directory name) rest) settled
      else
        let below := if directory = "" then segment else directory ++ "/" ++ segment
        expandFrom snapshot below rest

/-- The directories that match a directory pattern. One without wildcards stands for itself,
whether it exists or not. -/
def expandDirectories (snapshot : Snapshot) (pattern : String) :
    Except SourceError (List String) :=
  let segments := (Path.segments pattern).filter (· != "")
  if segments.any Path.isWildcard then expandFrom snapshot "" segments else .ok [pattern]

/-- The paths of the files that match a pattern, ascending. -/
def expand (snapshot : Snapshot) (pattern : String) : Except SourceError (List String) :=
  let (directory, file) := Path.splitFile pattern
  match expandDirectories snapshot directory with
  | .error error => .error error
  | .ok directories =>
      let glob := Glob.ofSegment file
      (gather (fun directory => snapshot.files directory glob.accepts) directories).map
        fun files => Text.ascending (files.map (·.path))

end Rollout.Plan
