/-!
Documents in YAML as trees, and places in their text.
-/

namespace Rollout.Yaml

inductive Node where
  /-- A scalar with its tag; quotes and block forms are not plain. -/
  | scalar (isPlain : Bool) (tag : Option String) (text : String)
  | list (items : List Node)
  | record (entries : List (Node × Node))

def Node.empty : Node := .scalar true none ""

/-- The node with a tag; collections are what they are whatever their tag is. -/
def Node.tagged (tag : Option String) : Node → Node
  | .scalar isPlain none text => .scalar isPlain tag text
  | node => node

/-- What is left of a text, and where that begins. -/
structure Cursor where
  rest : List Char
  line : Nat := 0
  column : Nat := 0

def isBreak (c : Char) : Bool := c == '\n' || c == '\u2028' || c == '\u2029'

def isBlank (c : Char) : Bool := c == ' ' || c == '\t'

/-- Does the text begin with white space, or end here? -/
def startsBlank : List Char → Bool
  | [] => true
  | c :: _ => isBlank c || isBreak c

def isIndicator (indicator : Char) : List Char → Bool
  | c :: rest => c == indicator && startsBlank rest
  | [] => false

/-- Does a line begin so that it begins or ends a document? -/
def isMarker : List Char → Bool
  | a :: b :: c :: rest =>
      (a == '-' || a == '.') && a == b && b == c && startsBlank rest
  | _ => false

namespace Cursor

/-- Does the text end here, or the document? -/
def isAtEnd (cursor : Cursor) : Bool :=
  cursor.rest.isEmpty || (cursor.column == 0 && isMarker cursor.rest)

def move (count : Nat) (cursor : Cursor) : Cursor :=
  { cursor with rest := cursor.rest.drop count, column := cursor.column + count }

/-- Passes over white space and comments. Tabs are passed over only where they are allowed, which
they are not at the beginning of lines, except between brackets. -/
def skipFrom (inFlow : Bool) : (tabs comment : Bool) → (line column : Nat) → List Char → Cursor
  | _, _, line, column, [] => ⟨[], line, column⟩
  | tabs, comment, line, column, c :: rest =>
      if isBreak c then skipFrom inFlow inFlow false (line + 1) 0 rest
      else if comment then skipFrom inFlow tabs true line (column + 1) rest
      else if c = ' ' ∨ (c = '\t' ∧ tabs) then skipFrom inFlow tabs false line (column + 1) rest
      else if c = '#' then skipFrom inFlow tabs true line (column + 1) rest
      else ⟨c :: rest, line, column⟩

def skip (inFlow tabs : Bool) (cursor : Cursor) : Cursor :=
  skipFrom inFlow (inFlow || tabs) false cursor.line cursor.column cursor.rest

end Cursor

end Rollout.Yaml
