/-!
Places in a text, by line and column, both from 1. Columns count characters.
-/

namespace Rollout.Text

structure Position where
  line : Nat := 1
  column : Nat := 1
deriving DecidableEq, Repr

namespace Position

def advance (place : Position) (c : Char) : Position :=
  if c = '\n' then ⟨place.line + 1, 1⟩ else { place with column := place.column + 1 }

/-- The place behind the characters that end within the given number of bytes. -/
def after (place : Position) : Nat → List Char → Position
  | _, [] => place
  | bytes, c :: rest =>
      if c.utf8Size ≤ bytes then (place.advance c).after (bytes - c.utf8Size) rest else place

end Position

/-- The place of a byte of the text; a byte within a character counts as the first of that
character, and one behind the end as the end. -/
def position (text : String) (offset : Nat) : Position := Position.after {} offset text.toList

end Rollout.Text
