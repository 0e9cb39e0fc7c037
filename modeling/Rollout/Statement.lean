import Rollout.Text.Blank
import Rollout.ParseError

/-!
Statements: a text is cut at line feeds and semicolons, except inside literals, which stand
between two grave accents. A comment starts with two hyphens where a statement could start and
runs to the end of its line.
-/

namespace Rollout

structure Statement where
  text : String
  /-- The line its first character stands on, from 1. -/
  line : Nat
deriving DecidableEq, Repr

namespace Statement

def mark : Char := '\x60'

/-- The statement collected so far (last character first), unless there is nothing in it. -/
def close (start : Nat) (collected : List Char) : List Statement :=
  match Text.trim collected.reverse with
  | [] => []
  | text => [⟨String.ofList text, start⟩]

/-- A statement starts on the line of its first character that is not blank. -/
def startLine (line start : Nat) (collected : List Char) (c : Char) : Nat :=
  if Text.allBlank collected && !Text.isBlank c then line else start

mutual

def outside (line start : Nat) (collected : List Char) :
    List Char → Except ParseError (List Statement)
  | [] => .ok (close start collected)
  | c :: rest =>
      if c = '-' ∧ rest.head? = some '-' ∧ Text.allBlank collected then
        comment line rest
      else if c = '\n' then
        (outside (line + 1) (line + 1) [] rest).map (close start collected ++ ·)
      else if c = ';' then
        (outside line line [] rest).map (close start collected ++ ·)
      else if c = mark then
        literal line line (startLine line start collected c) (c :: collected) rest
      else
        outside line (startLine line start collected c) (c :: collected) rest

/-- Reads on inside a literal that was opened on line `opened`. -/
def literal (opened line start : Nat) (collected : List Char) :
    List Char → Except ParseError (List Statement)
  | [] => .error (.unterminatedLiteral opened)
  | c :: rest =>
      if c = mark then outside line start (c :: collected) rest
      else if c = '\n' then literal opened (line + 1) start (c :: collected) rest
      else literal opened line start (c :: collected) rest

def comment (line : Nat) : List Char → Except ParseError (List Statement)
  | [] => .ok []
  | c :: rest =>
      if c = '\n' then outside (line + 1) (line + 1) [] rest
      else comment line rest

end

/-- The statements of a text, in order. -/
def split (text : String) : Except ParseError (List Statement) :=
  outside 1 1 [] text.toList

end Statement

end Rollout
