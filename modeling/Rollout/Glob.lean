import Rollout.Text.Pieces

/-!
Name patterns. A question mark or an asterisk stands for a stretch of a name without dots and
slashes, names in braces stand for any one of them, and every other character for itself.
-/

namespace Rollout

inductive Glob.Part where
  | letter (c : Char)
  | wildcard
  | oneOf (choices : List (List Char))
deriving DecidableEq, Repr

abbrev Glob := List Glob.Part

namespace Glob

def isPlain (c : Char) : Bool := c != '.' && c != '/'

def isBrace (c : Char) : Bool := c == '\x7b' || c == '\x7d'

/-- The choices at the start of a text that follows an opening brace, and the length of what
they take up; none unless the next brace is a closing one. -/
def choices? (text : List Char) : Option (List Char × Nat) :=
  let inside := text.takeWhile (!isBrace ·)
  if (text.drop inside.length).head? = some '\x7d' then some (inside, inside.length + 1)
  else none

/-- Reads a pattern after passing over `skip` characters. -/
def read : Nat → List Char → Glob
  | _, [] => []
  | skip + 1, _ :: rest => read skip rest
  | 0, c :: rest =>
      if c = '\x7b' then
        match choices? rest with
        | some (inside, taken) => .oneOf (Text.pieces ',' inside) :: read taken rest
        | none => .letter c :: read 0 rest
      else if c = '?' ∨ c = '*' then .wildcard :: read 0 rest
      else .letter c :: read 0 rest

/-- The pattern that a segment spells. Every segment spells one. -/
def ofSegment (segment : String) : Glob := read 0 segment.toList

/-- What can be left of a text after a wildcard took one or more characters. -/
def afterWildcard : List Char → List (List Char)
  | [] => []
  | c :: rest => if isPlain c then rest :: afterWildcard rest else []

def afterChoice (text choice : List Char) : Option (List Char) :=
  if choice.isPrefixOf text then some (text.drop choice.length) else none

/-- What can be left of a text after a part took its piece. -/
def Part.rests : Part → List Char → List (List Char)
  | letter c, d :: rest => if c = d then [rest] else []
  | letter _, [] => []
  | wildcard, text => afterWildcard text
  | oneOf choices, text => choices.filterMap (afterChoice text)

def rests : Glob → List (List Char) → List (List Char)
  | [], texts => texts
  | part :: glob, texts => rests glob (texts.flatMap part.rests).eraseDups

def accepts (glob : Glob) (name : String) : Bool := (rests glob [name.toList]).any (·.isEmpty)

/-- Any name of one line. -/
def anyName (name : String) : Bool := !name.toList.contains '\n'

end Glob

end Rollout
