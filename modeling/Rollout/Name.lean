import Rollout.Text.Pieces

/-!
Names: plain identifiers, and pairs of a schema and an item.
-/

namespace Rollout.Name

def wildcard : String := "?"

def isIdentifierStart (c : Char) : Bool := c.isAlphanum || c == '_'

def isIdentifierRest (c : Char) : Bool := isIdentifierStart c || c == '$' || c == '-'

/-- Letters, digits and underscores, after the first also dollars and hyphens; all ASCII. -/
def isIdentifier (name : String) : Bool :=
  match name.toList with
  | [] => false
  | c :: rest => isIdentifierStart c && rest.all isIdentifierRest

/-- The schema and the item of `schema.item`, if there are exactly these two and neither is
empty. -/
def qualified? (name : String) : Option (String × String) :=
  match Text.splitAt '.' name with
  | [schema, item] => if schema = "" ∨ item = "" then none else some (schema, item)
  | _ => none

end Rollout.Name
