import Rollout.Registry

/-!
The source trees of a run. The base location is opened once for each ref that is asked for, and
stays open.
-/

namespace Rollout

structure Sources where
  drivers : List (String × SourceDriver)
  base : Location
  /-- The trees that are open, by the ref they were opened at; no ref comes first. -/
  trees : List (Option String × Tree) := []

namespace Sources

/-- The ref that counts: the one asked for, else that of the base location. -/
def key (sources : Sources) (ref : Option String) : Option String :=
  match ref with
  | some ref => some ref
  | none => sources.base.fragment

def precedes : Option String → Option String → Bool
  | none, some _ => true
  | some first, some second => decide (first < second)
  | _, none => false

def insertTree (key : Option String) (tree : Tree) :
    List (Option String × Tree) → List (Option String × Tree)
  | [] => [(key, tree)]
  | first :: rest =>
      if precedes key first.1 then (key, tree) :: first :: rest
      else first :: insertTree key tree rest

def opened? (sources : Sources) (ref : Option String) : Option Tree :=
  sources.trees.lookup (sources.key ref)

/-- The tree at a ref. It is opened if it is not open yet; nothing changes if that fails. -/
def get (sources : Sources) (workspace : Workspace) (ref : Option String) :
    Except RegistryError Tree × Sources :=
  match sources.opened? ref with
  | some tree => (.ok tree, sources)
  | none =>
      let key := sources.key ref
      let registry : Registry Empty := { sources := sources.drivers }
      match registry.openSource workspace (sources.base.withRef key) with
      | .error error => (.error error, sources)
      | .ok tree => (.ok tree, { sources with trees := insertTree key tree sources.trees })

/-- The base location and the refs that are open, for someone who looks for faults. -/
def shown (sources : Sources) : String :=
  let base := sources.base
  let location := "Location \x7b scheme: " ++ Text.Shown.quoted base.scheme ++ ", path: " ++
    Text.Shown.quoted base.path ++ ", fragment: " ++ Text.Shown.optional base.fragment ++ " \x7d"
  let keys := Text.Shown.bracketed (sources.trees.map fun entry => Text.Shown.optional entry.1)
  "Sources \x7b base: " ++ location ++ ", open: " ++ keys ++ " \x7d"

end Sources

end Rollout
