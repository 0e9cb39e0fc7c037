import Rollout.Text.Ordered

/-!
Documents in JSON, indented by two blanks a level. A document is given by how it is written at a
level.
-/

namespace Rollout.Text

/-- How a document is written, after its first line, at a level. -/
abbrev Json := Nat → List Char

namespace Json

def escape (c : Char) : List Char :=
  match c with
  | '"' => ['\\', '"']
  | '\\' => ['\\', '\\']
  | '\x08' => ['\\', 'b']
  | '\t' => ['\\', 't']
  | '\n' => ['\\', 'n']
  | '\x0c' => ['\\', 'f']
  | '\r' => ['\\', 'r']
  | _ =>
      if c.toNat < 0x20 then
        ['\\', 'u', '0', '0', Nat.digitChar (c.toNat / 16), Nat.digitChar (c.toNat % 16)]
      else [c]

def quoted (text : String) : List Char := '"' :: (text.toList.flatMap escape ++ ['"'])

def null : Json := fun _ => "null".toList

def text (value : String) : Json := fun _ => quoted value

def textOrNull : Option String → Json
  | some value => text value
  | none => null

def newLine (level : Nat) : List Char := '\n' :: List.replicate (2 * level) ' '

/-- Items with commas between them, each on a line of its own. -/
def lines (level : Nat) : List (List Char) → List Char
  | [] => []
  | [item] => newLine level ++ item
  | item :: rest => newLine level ++ item ++ ',' :: lines level rest

/-- Brackets around items; nothing stands between them if there are no items. -/
def enclosed (opening closing : Char) (items : List Json) : Json := fun level =>
  match items with
  | [] => [opening, closing]
  | _ => opening :: (lines (level + 1) (items.map (· (level + 1))) ++ newLine level ++ [closing])

def list (items : List Json) : Json := enclosed '[' ']' items

def record (fields : List (String × Json)) : Json :=
  enclosed '\x7b' '\x7d' (fields.map fun (name, value) level =>
    quoted name ++ ':' :: ' ' :: value level)

/-- The record with its fields in ascending order; the last value of a name counts. -/
def sortedRecord (fields : List (String × Json)) : Json :=
  record (fields.foldl (fun record (name, value) => insertEntry name value record) [])

def written (document : Json) : String := String.ofList (document 0)

end Json

end Rollout.Text
