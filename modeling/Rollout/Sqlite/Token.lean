import Rollout.Sqlite.Identifier

/-!
Words of SQL. Blanks and comments stand between them.
-/

namespace Rollout.Sqlite

inductive Meaning where
  /-- A name or a keyword. -/
  | bare
  /-- A name between quotes. -/
  | name (value : String)
  | string (value : String)
  | bytes (digits : List Char)
  | number
  /-- A place for a value that does not stand in the text. Statements of scripts have none. -/
  | variable
  | symbol (c : Char)
  /-- Nothing; such a token is not allowed anywhere. -/
  | unknown
deriving DecidableEq, Repr

structure Token where
  meaning : Meaning
  /-- The token as it stands in the text, and how many bytes stand before it there. -/
  written : String
  offset : Nat
deriving DecidableEq, Repr

namespace Token

def isSpace (c : Char) : Bool :=
  c == ' ' || c == '\t' || c == '\n' || c == '\x0c' || c == '\r' || c == '\uFEFF'

/-- Characters that names begin with. -/
def startsName (c : Char) : Bool := c.isAlpha || c == '_' || 0x80 ≤ c.toNat

def continuesName (c : Char) : Bool := startsName c || c.isDigit || c == '$'

/-- The value up to the closing quote, two quotes standing for one; what was written, the closing
quote included; and the rest. None if there is no closing quote. -/
def untilQuote (quote : Char) : List Char → Option (List Char × List Char × List Char)
  | [] => none
  | [c] => if c = quote then some ([], [c], []) else none
  | c :: next :: rest =>
      if c = quote then
        if next = quote then
          (untilQuote quote rest).map fun (value, written, rest) =>
            (quote :: value, c :: next :: written, rest)
        else some ([], [c], next :: rest)
      else
        (untilQuote quote (next :: rest)).map fun (value, written, rest) =>
          (c :: value, c :: written, rest)

/-- A token between quotes: its meaning, what was written, and the rest. -/
def quotedBy (quote : Char) (meaning : String → Meaning) (text : List Char) :
    Meaning × List Char × List Char :=
  match untilQuote quote text with
  | some (value, written, rest) => (meaning (String.ofList value), quote :: written, rest)
  | none => (.unknown, quote :: text, [])

/-- A token that goes on as long as its characters pass a test. -/
def whileTrue (meaning : Meaning) (test : Char → Bool) (first : Char) (rest : List Char) :
    Meaning × List Char × List Char :=
  (meaning, first :: rest.takeWhile test, rest.dropWhile test)

def isHexDigit (c : Char) : Bool :=
  c.isDigit || ('a' ≤ c && c ≤ 'f') || ('A' ≤ c && c ≤ 'F')

/-- The exponent of a number, if one stands there: what was written, and the rest. -/
def exponent : List Char → List Char × List Char
  | letter :: rest =>
      if letter = 'e' ∨ letter = 'E' then
        let (sign, digits) := match rest with
          | '+' :: digits => (['+'], digits)
          | '-' :: digits => (['-'], digits)
          | digits => ([], digits)
        if (digits.takeWhile Char.isDigit).isEmpty then ([], letter :: rest)
        else (letter :: (sign ++ digits.takeWhile Char.isDigit), digits.dropWhile Char.isDigit)
      else ([], letter :: rest)
  | [] => ([], [])

/-- A number, without a name right behind it. -/
def numeral (text : List Char) : Meaning × List Char × List Char :=
  let (written, rest) := match text with
    | '0' :: mark :: digit :: rest =>
        if (mark = 'x' ∨ mark = 'X') ∧ isHexDigit digit then
          ('0' :: mark :: digit :: rest.takeWhile isHexDigit, rest.dropWhile isHexDigit)
        else decimal text
    | _ => decimal text
  let tail := rest.takeWhile continuesName
  if tail.isEmpty then (.number, written, rest)
  else (.unknown, written ++ tail, rest.dropWhile continuesName)
where
  decimal (text : List Char) : List Char × List Char :=
    let whole := text.takeWhile Char.isDigit
    let (fraction, rest) := match text.dropWhile Char.isDigit with
      | '.' :: rest => ('.' :: rest.takeWhile Char.isDigit, rest.dropWhile Char.isDigit)
      | rest => ([], rest)
    let (power, rest) := exponent rest
    (whole ++ fraction ++ power, rest)

/-- Bytes in hexadecimal digits, two a byte. -/
def byteString (mark : Char) (text : List Char) : Meaning × List Char × List Char :=
  let digits := text.takeWhile isHexDigit
  match text.dropWhile isHexDigit with
  | '\'' :: rest =>
      let meaning := if digits.length % 2 = 0 then Meaning.bytes digits else .unknown
      (meaning, mark :: '\'' :: (digits ++ ['\'']), rest)
  | others =>
      let written := others.takeWhile (· ≠ '\'')
      (.unknown, mark :: '\'' :: (digits ++ written), others.dropWhile (· ≠ '\''))

/-- The token that begins with a character which is no space: its meaning, what was written, and
the rest. -/
def one (c : Char) (rest : List Char) : Meaning × List Char × List Char :=
  if c = '"' then quotedBy '"' .name rest
  else if c = '\x60' then quotedBy '\x60' .name rest
  else if c = '\'' then quotedBy '\'' .string rest
  else if c.isDigit then numeral (c :: rest)
  else match c, rest with
    | '[', _ =>
        match rest.dropWhile (· ≠ ']') with
        | [] => (.unknown, c :: rest, [])
        | closing :: others =>
            let name := rest.takeWhile (· ≠ ']')
            (.name (String.ofList name), c :: (name ++ [closing]), others)
    | '.', digit :: _ =>
        if digit.isDigit then numeral (c :: rest) else (.symbol c, [c], rest)
    | 'x', '\'' :: others => byteString c others
    | 'X', '\'' :: others => byteString c others
    | '?', _ => whileTrue .variable Char.isDigit c rest
    | _, _ =>
        if startsName c then whileTrue .bare continuesName c rest
        else if "()*,;+-/<=>%&|~.!".toList.contains c then (.symbol c, [c], rest)
        else (.unknown, [c], rest)

/-- How many bytes characters take. -/
def byteLength (text : List Char) : Nat :=
  text.foldl (fun length c => length + c.utf8Size) 0

/-- The rest behind the end of a comment between marks; the text may end first. -/
def afterComment : List Char → List Char
  | '*' :: '/' :: rest => rest
  | _ :: rest => afterComment rest
  | [] => []

/-- What stands at the start of a text: space or a comment, then the rest; or a token, and the
rest. -/
def next (c : Char) (rest : List Char) : Option (Meaning × List Char) × List Char :=
  if isSpace c then (none, rest)
  else match c, rest with
    | '-', '-' :: comment => (none, comment.dropWhile (· ≠ '\n'))
    | '/', '*' :: comment => (none, afterComment comment)
    | _, _ =>
        let (meaning, written, rest) := one c rest
        (some (meaning, written), rest)

/-- The tokens of a text with so many bytes before it. Every turn takes characters away, so that
no more turns are needed than there are characters. -/
def scan : Nat → Nat → List Char → List Token
  | turns + 1, offset, c :: rest =>
      let (found, after) := next c rest
      let further := scan turns (offset + (byteLength (c :: rest) - byteLength after)) after
      match found with
      | none => further
      | some (meaning, written) => ⟨meaning, String.ofList written, offset⟩ :: further
  | _, _, _ => []

def ofText (text : String) : List Token := scan text.toList.length 0 text.toList

/-- Is the token the keyword, in letters of either case? -/
def isKeyword (keyword : String) (token : Token) : Bool :=
  token.meaning == .bare && Identifier.same token.written keyword

def isSymbol (c : Char) (token : Token) : Bool := token.meaning == .symbol c

end Token

end Rollout.Sqlite
