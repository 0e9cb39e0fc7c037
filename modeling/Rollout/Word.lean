import Rollout.Text.Blank
import Rollout.Statement
import Rollout.Name

/-!
Words of a statement: white space separates them, except inside literals.
-/

namespace Rollout

inductive Word where
  /-- A keyword, a list of names or a path. -/
  | plain (text : String)
  /-- One pair of a schema and an item. -/
  | qualified (text : String)
  | integer (text : String)
  /-- What stands between two grave accents. -/
  | literal (text : String)
  /-- What follows a number sign. -/
  | ref (text : String)
deriving DecidableEq, Repr

namespace Word

def text : Word → String
  | plain text | qualified text | integer text | literal text | ref text => text

def written : Word → String
  | literal text => s!"\x60{text}\x60"
  | ref text => s!"#{text}"
  | word => word.text

def isRef : Word → Bool
  | ref _ => true
  | _ => false

def isLiteral : Word → Bool
  | literal _ => true
  | _ => false

/-- The class of a word that is not a literal. -/
def classify (letters : List Char) : Word :=
  let text := String.ofList letters
  match letters with
  | '#' :: rest => .ref (String.ofList rest)
  | _ =>
      if !letters.isEmpty && letters.all Char.isDigit then .integer text
      else if !letters.contains ',' && !letters.contains '/' && (Name.qualified? text).isSome then
        .qualified text
      else .plain text

mutual

def between : List Char → Option (List Word)
  | [] => some []
  | c :: rest =>
      if Text.isBlank c then between rest
      else if c = Statement.mark then inLiteral [] rest
      else inWord [c] rest

/-- Reads on in a word of which `collected` has been read, last character first. -/
def inWord (collected : List Char) : List Char → Option (List Word)
  | [] => some [classify collected.reverse]
  | c :: rest =>
      if Text.isBlank c then (between rest).map (classify collected.reverse :: ·)
      else if c = Statement.mark then (inLiteral [] rest).map (classify collected.reverse :: ·)
      else inWord (c :: collected) rest

/-- Reads on in a literal; there is no word list if it stays open. -/
def inLiteral (collected : List Char) : List Char → Option (List Word)
  | [] => none
  | c :: rest =>
      if c = Statement.mark then
        (between rest).map (.literal (String.ofList collected.reverse) :: ·)
      else inLiteral (c :: collected) rest

end

/-- The words of a statement that starts on the given line. -/
def ofText (text : String) (line : Nat) : Except ParseError (List Word) :=
  match between text.toList with
  | some words => .ok words
  | none => .error (.unterminatedLiteral line)

end Word

end Rollout
