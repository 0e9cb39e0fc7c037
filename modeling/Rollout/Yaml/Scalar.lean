import Rollout.Text.Pieces
import Rollout.Yaml.Node

/-!
Reading scalars. Within plain and quoted scalars a single line break stands for a blank, and of
several the first is left out.
-/

namespace Rollout.Yaml

/-- White space that has been passed since the last character of a scalar. -/
structure Gap where
  /-- The latest first. -/
  blanks : List Char := []
  /-- Has a line ended? -/
  isBroken : Bool := false
  first : Option Char := none
  /-- Further breaks, the latest first. -/
  further : List Char := []

namespace Gap

def isEmpty (gap : Gap) : Bool := gap.blanks.isEmpty && !gap.isBroken

/-- White space at the two ends of lines does not count. -/
def add (gap : Gap) (c : Char) : Gap :=
  if isBreak c then
    if gap.isBroken then { gap with further := c :: gap.further }
    else { isBroken := true, first := some c }
  else if gap.isBroken then gap
  else { gap with blanks := c :: gap.blanks }

def joined (gap : Gap) : List Char :=
  if gap.isBroken then
    match gap.first with
    | none => gap.further.reverse
    | some first =>
        if first = '\n' then if gap.further = [] then [' '] else gap.further.reverse
        else first :: gap.further.reverse
  else gap.blanks.reverse

end Gap

def advance (c : Char) (line column : Nat) : Nat × Nat :=
  if isBreak c then (line + 1, 0) else (line, column + 1)

def startsPlain (inFlow : Bool) : List Char → Bool
  | [] => false
  | c :: rest =>
      if startsBlank [c] then false
      else if c = '-' then !startsBlank rest
      else if c = '?' ∨ c = ':' then !inFlow && !startsBlank rest
      else !(",[]\x7b\x7d#&*!|>'\"%@\x60".toList.contains c)

/-- The rest of a plain scalar. Outside brackets its lines are indented at least as given. -/
def plainFrom (inFlow : Bool) (indent : Int) : Gap → (text : List Char) → (line column : Nat) →
    List Char → Option (List Char × Cursor)
  | _, text, line, column, [] => some (text.reverse, ⟨[], line, column⟩)
  | gap, text, line, column, c :: rest =>
      let (nextLine, nextColumn) := advance c line column
      let stop := some (text.reverse, ⟨c :: rest, line, column⟩)
      if c = '\t' ∧ gap.isBroken ∧ Int.ofNat column < indent then none
      else if isBreak c || isBlank c then
        plainFrom inFlow indent (gap.add c) text nextLine nextColumn rest
      else if gap.isBroken ∧ !inFlow ∧ Int.ofNat column < indent then stop
      else if column = 0 ∧ isMarker (c :: rest) then stop
      else if c = '#' ∧ !gap.isEmpty then stop
      else if isIndicator ':' (c :: rest) then stop
      else if inFlow ∧ c = ':' ∧ (rest.head?.any ",?[]\x7b\x7d".toList.contains) then none
      else if inFlow ∧ ",[]\x7b\x7d".toList.contains c then stop
      else
        plainFrom inFlow indent {} (c :: (gap.joined.reverse ++ text)) nextLine nextColumn rest

/-- The rest of a scalar in single quotes; two of them stand for one. -/
def singleFrom : Gap → (text : List Char) → (line column : Nat) → List Char →
    Option (List Char × Cursor)
  | _, _, _, _, [] => none
  | gap, text, line, column, '\'' :: '\'' :: rest =>
      singleFrom {} ('\'' :: (gap.joined.reverse ++ text)) line (column + 2) rest
  | gap, text, line, column, c :: rest =>
      let (nextLine, nextColumn) := advance c line column
      if c = '\'' then
        some ((gap.joined.reverse ++ text).reverse, ⟨rest, line, column + 1⟩)
      else if column = 0 ∧ isMarker (c :: rest) then none
      else if isBreak c || isBlank c then singleFrom (gap.add c) text nextLine nextColumn rest
      else singleFrom {} (c :: (gap.joined.reverse ++ text)) nextLine nextColumn rest

def hexValue? (c : Char) : Option Nat :=
  if c.isDigit then some (c.toNat - '0'.toNat)
  else if 'a' ≤ c ∧ c ≤ 'f' then some (c.toNat - 'a'.toNat + 10)
  else if 'A' ≤ c ∧ c ≤ 'F' then some (c.toNat - 'A'.toNat + 10)
  else none

def charOf? (digits : List Char) : Option Char := do
  let values ← digits.mapM hexValue?
  let code := values.foldl (fun code value => code * 16 + value) 0
  if code ≤ 0x10FFFF ∧ ¬ (0xD800 ≤ code ∧ code ≤ 0xDFFF) then some (Char.ofNat code) else none

def escapes : List (Char × Char) :=
  [('0', '\x00'), ('a', '\x07'), ('b', '\x08'), ('t', '\t'), ('\t', '\t'), ('n', '\n'),
    ('v', '\x0b'), ('f', '\x0c'), ('r', '\r'), ('e', '\x1b'), (' ', ' '), ('"', '"'),
    ('/', '/'), ('\\', '\\'), ('N', '\u0085'), ('_', '\u00a0'), ('L', '\u2028'),
    ('P', '\u2029')]

def doubleFrom : Gap → (text : List Char) → (line column : Nat) → List Char →
    Option (List Char × Cursor)
  | gap, text, line, column, '\\' :: 'x' :: a :: b :: rest => do
      let found ← charOf? [a, b]
      doubleFrom {} (found :: (gap.joined.reverse ++ text)) line (column + 4) rest
  | gap, text, line, column, '\\' :: 'u' :: a :: b :: c :: d :: rest => do
      let found ← charOf? [a, b, c, d]
      doubleFrom {} (found :: (gap.joined.reverse ++ text)) line (column + 6) rest
  | gap, text, line, column, '\\' :: 'U' :: a :: b :: c :: d :: e :: f :: g :: h :: rest => do
      let found ← charOf? [a, b, c, d, e, f, g, h]
      doubleFrom {} (found :: (gap.joined.reverse ++ text)) line (column + 10) rest
  | gap, text, line, column, '\\' :: c :: rest =>
      if isBreak c then
        doubleFrom { isBroken := true } (gap.joined.reverse ++ text) (line + 1) 0 rest
      else do
        let found ← escapes.lookup c
        doubleFrom {} (found :: (gap.joined.reverse ++ text)) line (column + 2) rest
  | gap, text, line, column, c :: rest =>
      let (nextLine, nextColumn) := advance c line column
      if c = '"' then some ((gap.joined.reverse ++ text).reverse, ⟨rest, line, column + 1⟩)
      else if column = 0 ∧ isMarker (c :: rest) then none
      else if isBreak c || isBlank c then doubleFrom (gap.add c) text nextLine nextColumn rest
      else doubleFrom {} (c :: (gap.joined.reverse ++ text)) nextLine nextColumn rest
  | _, _, _, _, [] => none

/-- Which breaks at the end of a block scalar belong to it. -/
inductive Chomping where
  | none
  | one
  | all
deriving DecidableEq

/-- What the first line of a block scalar says. -/
structure Header where
  chomping : Chomping := .one
  /-- How far lines are indented, more than what is around them. -/
  indent : Option Nat := none

def header : List Char → Header → Option (Header × List Char)
  | '+' :: rest, found =>
      if found.chomping = .one then header rest { found with chomping := .all } else none
  | '-' :: rest, found =>
      if found.chomping = .one then header rest { found with chomping := .none } else none
  | c :: rest, found =>
      if c.isDigit then
        if found.indent.isNone ∧ c ≠ '0' then
          header rest { found with indent := some (c.toNat - '0'.toNat) }
        else none
      else some (found, c :: rest)
  | [], found => some (found, [])

def leadingBlanks (line : List Char) : Nat := (line.takeWhile (· = ' ')).length

/-- The indentation of a block scalar that does not give it: that of its first line with text, or
of a longer one before that. -/
def detectIndent (least : Nat) (lines : List (List Char)) : Nat :=
  let isEmpty (line : List Char) : Bool := line.all (· = ' ')
  let leading := lines.takeWhile isEmpty ++ (lines.dropWhile isEmpty).take 1
  (leading.map leadingBlanks).foldl max least

structure Block where
  /-- The latest first. -/
  text : List Char := []
  /-- Has the last line with text ended? -/
  isBroken : Bool := false
  /-- How many empty lines have followed. -/
  empties : Nat := 0
  /-- Does the last line begin with white space? -/
  isIndented : Bool := false

/-- Adds a line with text, without its indentation. Where lines are folded, one break between
lines that do not begin with white space stands for a blank. -/
def Block.add (folded isLast : Bool) (block : Block) (line : List Char) : Block :=
  let startsIndented := line.head?.any isBlank
  let between :=
    if folded && block.isBroken && !block.isIndented && !startsIndented then
      if block.empties = 0 then [' '] else []
    else if block.isBroken then ['\n'] else []
  let text := List.replicate block.empties '\n' ++ between ++ block.text
  { text := line.reverse ++ text, isBroken := !isLast, isIndented := startsIndented }

/-- The lines of a block scalar that are indented so far, and those behind it. -/
def blockLines (folded : Bool) (indent : Nat) :
    Block → List (List Char) → Option (Block × List (List Char))
  | block, [] => some (block, [])
  | block, line :: rest =>
      let blanks := min indent (leadingBlanks line)
      let text := line.drop blanks
      if text = [] then
        if rest = [] then some (block, [])
        else blockLines folded indent { block with empties := block.empties + 1 } rest
      else if blanks < indent then
        if text.head? = some '\t' then none else some (block, line :: rest)
      else blockLines folded indent (block.add folded rest.isEmpty text) rest

def Block.chomped (block : Block) (chomping : Chomping) : List Char :=
  let last := if block.isBroken then ['\n'] else []
  match chomping with
  | .none => block.text.reverse
  | .one => (last ++ block.text).reverse
  | .all => (List.replicate block.empties '\n' ++ last ++ block.text).reverse

/-- A block scalar, from its first line on, within something that is indented as given. -/
def blockScalar (parent : Int) (cursor : Cursor) : Option (String × Cursor) := do
  let folded := cursor.rest.head? == some '>'
  let (found, rest) ← header (cursor.rest.drop 1) {}
  let line := rest.takeWhile fun c => !isBreak c
  let isComment := match line.dropWhile isBlank with
    | [] => true
    | '#' :: _ => true
    | _ => false
  if !isComment then none
  else
    let lines := Text.pieces '\n' ((rest.dropWhile fun c => !isBreak c).drop 1)
    let base : Nat := (parent + 1).toNat
    let indent := match found.indent with
      | some more => parent.toNat + more
      | none => detectIndent (max base 1) lines
    let (block, behind) ← blockLines folded indent {} lines
    let text := String.ofList (block.chomped found.chomping)
    let passed := lines.length - behind.length
    return (text, ⟨['\n'].intercalate behind, cursor.line + 1 + passed, 0⟩)

end Rollout.Yaml
