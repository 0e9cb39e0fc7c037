/-!
Cutting text at a character, and into lines; and replacing every occurrence of a word in a text,
from left to right, where occurrences that are taken do not overlap.
-/

namespace Rollout.Text

/-- The stretches between occurrences of the separator; one more than there are separators. -/
def pieces (separator : Char) : List Char → List (List Char)
  | [] => [[]]
  | c :: rest =>
      if c = separator then [] :: pieces separator rest
      else match pieces separator rest with
        | [] => [[c]]
        | piece :: more => (c :: piece) :: more

def splitAt (separator : Char) (text : String) : List String :=
  (pieces separator text.toList).map String.ofList

/-- The text before the first separator and the text after it. -/
def cutFirst (separator : Char) : List Char → Option (List Char × List Char)
  | [] => none
  | c :: rest =>
      if c = separator then some ([], rest)
      else (cutFirst separator rest).map fun (before, after) => (c :: before, after)

/-- The text before the last separator and the text after it. -/
def cutLast (separator : Char) (text : List Char) : Option (List Char × List Char) :=
  (cutFirst separator text.reverse).map fun (after, before) => (before.reverse, after.reverse)

def dropReturn (line : List Char) : List Char :=
  match line.reverse with
  | '\r' :: rest => rest.reverse
  | _ => line

/-- Lines end at a line feed, or at a carriage return and a line feed. A last line without an
end counts unless it is empty, and keeps a carriage return. -/
def lineChars (text : List Char) : List (List Char) :=
  match (pieces '\n' text).reverse with
  | [] => []
  | last :: ended =>
      let complete := ended.reverse.map dropReturn
      if last = [] then complete else complete ++ [last]

def lines (text : String) : List String := (lineChars text.toList).map String.ofList

def occurs (word : List Char) : List Char → Bool
  | [] => word.isEmpty
  | c :: rest => word.isPrefixOf (c :: rest) || occurs word rest

/-- Passes over `skip` characters, then replaces every occurrence of the word. -/
def replaceAfter (word value : List Char) : Nat → List Char → List Char
  | _, [] => []
  | skip + 1, _ :: rest => replaceAfter word value skip rest
  | 0, c :: rest =>
      if word.isPrefixOf (c :: rest) then value ++ replaceAfter word value (word.length - 1) rest
      else c :: replaceAfter word value 0 rest

/-- Every occurrence of the word, which must not be empty, replaced by the value. -/
def replaceAll (word value text : List Char) : List Char := replaceAfter word value 0 text

end Rollout.Text
