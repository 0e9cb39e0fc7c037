import Rollout.Number.Literal
import Rollout.Text.Shown
import Rollout.Yaml.Node

/-!
Writing texts as scalars, so that they read back as texts: plain where that is possible, else in
single quotes, else as a block of lines or in double quotes.
-/

namespace Rollout.Yaml

/-- The words for nothing, for truth and for falsehood. -/
def nullWords : List String := ["null", "Null", "NULL", "~"]
def trueWords : List String := ["true", "True", "TRUE"]
def falseWords : List String := ["false", "False", "FALSE"]

namespace Writer

def isDigitOf (base : Nat) (c : Char) : Bool :=
  c.isAlphanum && Number.digitValue c < base

/-- The greatest whole number that counts as one. -/
def greatestWhole : Nat := Nat.pow 2 128 - 1

/-- Do the digits spell a whole number behind a mark for their base? -/
def isMarkedWhole (isNegative : Bool) (text : List Char) : Bool :=
  let fits (base : Nat) (digits : List Char) : Bool :=
    !digits.isEmpty && digits.all (isDigitOf base) &&
      Number.natOf base digits ≤ if isNegative then Nat.pow 2 127 else greatestWhole
  match text with
  | '0' :: 'x' :: digits => fits 16 digits
  | '0' :: 'o' :: digits => fits 8 digits
  | '0' :: 'b' :: digits => fits 2 digits
  | _ => false

/-- Digits behind a zero are text. -/
def isZeroPadded (text : List Char) : Bool :=
  1 < text.length && text.head? == some '0' && text.all Char.isDigit

/-- Does the text spell a decimal number that is not too large? -/
def isDecimal (text : List Char) : Bool :=
  let literal := Number.Literal.read text
  !isZeroPadded text && literal.rest.isEmpty && !(literal.whole ++ literal.fraction).isEmpty &&
    literal.nearest.isSome

def isNumber (text : String) : Bool :=
  let (sign, size) := match text.toList with
    | '+' :: rest => (some '+', rest)
    | '-' :: rest => (some '-', rest)
    | rest => (none, rest)
  let word := String.ofList size
  isMarkedWhole (sign == some '-') size || isDecimal size ||
    [".inf", ".Inf", ".INF"].contains word ||
    (sign.isNone && [".nan", ".NaN", ".NAN"].contains word)

/-- Does a plain scalar with this text stand for something else? -/
def isOther (text : String) : Bool :=
  text = "" || nullWords.contains text || trueWords.contains text || falseWords.contains text ||
    isNumber text

def isPrintable (c : Char) : Bool :=
  let code := c.toNat
  code == 0x0A || (0x20 ≤ code && code ≤ 0x7E) ||
    (0xA0 ≤ code && code ≤ 0xFFFD && code != 0xFEFF)

/-- Does the text begin so that it could not be read as a plain scalar? -/
def startsIndicator (text : List Char) : Bool :=
  "---".toList.isPrefixOf text || "...".toList.isPrefixOf text ||
    text.head?.any ",[]\x7b\x7d#&*!|>'\"%@\x60".toList.contains ||
    "?:-".toList.any fun c => isIndicator c text

/-- Does something stand within the text that ends plain scalars? -/
def holdsIndicator : List Char → Bool
  | c :: rest =>
      (startsBlank [c] && rest.head? == some '#') || isIndicator ':' rest || holdsIndicator rest
  | [] => false

def isPlain (text : List Char) : Bool :=
  !startsIndicator text && !holdsIndicator text && text.head? != some ' ' &&
    text.getLast? != some ' '

/-- Does a blank stand before the end of a line? -/
def holdsBlankBreak : List Char → Bool
  | ' ' :: '\n' :: _ => true
  | _ :: rest => holdsBlankBreak rest
  | [] => false

def singleQuoted (text : List Char) : List Char :=
  '\'' :: (text.flatMap (fun c => if c = '\'' then ['\'', '\''] else [c]) ++ ['\''])

def hexDigits (width : Nat) (code : Nat) : List Char :=
  let digits := (Text.Shown.hexDigits code).map Char.toUpper
  List.replicate (width - digits.length) '0' ++ digits

def letters : List (Char × Char) :=
  [('\x00', '0'), ('\x07', 'a'), ('\x08', 'b'), ('\t', 't'), ('\n', 'n'), ('\x0b', 'v'),
    ('\x0c', 'f'), ('\r', 'r'), ('\x1b', 'e'), ('"', '"'), ('\\', '\\'), ('\u0085', 'N'),
    ('\u2028', 'L'), ('\u2029', 'P')]

def escaped (c : Char) : List Char :=
  match letters.lookup c with
  | some letter => ['\\', letter]
  | none =>
      let code := c.toNat
      if isPrintable c then [c]
      else if code ≤ 0xFF then '\\' :: 'x' :: hexDigits 2 code
      else if code ≤ 0xFFFF then '\\' :: 'u' :: hexDigits 4 code
      else '\\' :: 'U' :: hexDigits 8 code

def doubleQuoted (text : List Char) : List Char := '"' :: (text.flatMap escaped ++ ['"'])

def indentation : List Char := [' ', ' ']

/-- The lines of a block; empty ones are not indented. -/
def indented : (startsLine : Bool) → List Char → List Char
  | _, [] => []
  | startsLine, c :: rest =>
      if c = '\n' then c :: indented true rest
      else if startsLine then indentation ++ c :: indented false rest
      else c :: indented false rest

/-- A block of lines as they are. Its first line says how far they are indented, if the text
begins with white space, and which breaks at the end belong to the text. -/
def block (text : List Char) : List Char :=
  let startsWhite := text.head? = some ' ' ∨ text.head? = some '\n'
  let depth := if startsWhite then ['2'] else []
  let chomping := match text.reverse with
    | '\n' :: rest => if rest = [] ∨ rest.head? = some '\n' then ['+'] else []
    | _ => ['-']
  '|' :: (depth ++ chomping ++ '\n' :: indented true text)

end Writer

/-- The text as a scalar that is the value of a key. -/
def scalar (text : String) : String :=
  let characters := text.toList
  let isSpecial := !characters.all Writer.isPrintable || Writer.holdsBlankBreak characters
  String.ofList <|
    if characters.contains '\n' then
      if isSpecial || characters.getLast? == some ' ' then Writer.doubleQuoted characters
      else Writer.block characters
    else if isSpecial then Writer.doubleQuoted characters
    else if Writer.isOther text || !Writer.isPlain characters then Writer.singleQuoted characters
    else text.toList

/-- A line for a key, which is plain, and its value, which is written already. -/
def entry (key value : String) : String :=
  if value.toList.getLast? = some '\n' then key ++ ": " ++ value else key ++ ": " ++ value ++ "\n"

end Rollout.Yaml
