import Rollout.Text.Blank
import Rollout.Text.Pieces

/-!
Locations of sources and databases: a scheme, a path and perhaps a fragment.
-/

namespace Rollout

structure Location where
  scheme : String
  path : String
  fragment : Option String
deriving DecidableEq, Repr

namespace Location

def defaultScheme : String := "file"

def withRef (location : Location) (fragment : Option String) : Location :=
  { location with fragment := fragment }

def written (location : Location) : String :=
  location.scheme ++ "://" ++ location.path ++
    match location.fragment with
    | some fragment => "#" ++ fragment
    | none => ""

/-- The text before the first `://` and the text after it. -/
def cutScheme : List Char → Option (List Char × List Char)
  | ':' :: '/' :: '/' :: rest => some ([], rest)
  | [] => none
  | c :: rest => (cutScheme rest).map fun (before, after) => (c :: before, after)

def isSchemeLetter (c : Char) : Bool := c.isAlphanum || c == '+' || c == '-'

/-- The scheme in lower case and what follows it; nothing if what stands before the first `://`
cannot be a scheme. -/
def readScheme (text : List Char) : Option (String × List Char) :=
  match cutScheme text with
  | none => some (defaultScheme, text)
  | some (scheme, rest) =>
      if !scheme.isEmpty && scheme.all isSchemeLetter then
        some (String.ofList (scheme.map Char.toLower), rest)
      else none

/-- The path and the fragment after the last number sign; nothing if the fragment is empty. -/
def readFragment (rest : List Char) : Option (List Char × Option String) :=
  match Text.cutLast '#' rest with
  | none => some (rest, none)
  | some (_, []) => none
  | some (path, fragment) => some (path, some (String.ofList fragment))

/-- The location that a text without white space around it spells. -/
def read (text : List Char) : Option Location :=
  match readScheme text with
  | none => none
  | some (scheme, rest) =>
      match readFragment rest with
      | none => none
      | some (path, fragment) =>
          if path.isEmpty then none else some ⟨scheme, String.ofList path, fragment⟩

/-- The location that a text spells, white space around it not counted. A text that spells none
is given back trimmed. -/
def parse (text : String) : Except String Location :=
  match read (Text.trim text.toList) with
  | some location => .ok location
  | none => .error (Text.trimmed text)

end Location

end Rollout
