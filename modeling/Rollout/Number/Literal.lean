import Rollout.Number.Binary

/-!
Numbers as literals spell them.
-/

namespace Rollout.Number

def digitValue (c : Char) : Nat :=
  if c.isDigit then c.toNat - '0'.toNat
  else if 'a' ≤ c then c.toNat - 'a'.toNat + 10
  else c.toNat - 'A'.toNat + 10

def natOf (base : Nat) (digits : List Char) : Nat :=
  digits.foldl (fun n c => n * base + digitValue c) 0

/-- A decimal literal cut into its whole digits, those behind the point, and the power of ten by
which they are multiplied. -/
structure Literal where
  whole : List Char
  fraction : List Char := []
  power : Int := 0
  /-- What is left behind the literal. -/
  rest : List Char := []

namespace Literal

/-- The exponent at the start of a text, and the rest. A letter without digits is none. -/
def exponent (text : List Char) : Int × List Char :=
  match text with
  | letter :: '-' :: c :: rest =>
      if (letter = 'e' ∨ letter = 'E') ∧ c.isDigit then
        (Int.negOfNat (natOf 10 ((c :: rest).takeWhile Char.isDigit)),
          rest.dropWhile Char.isDigit)
      else (0, text)
  | letter :: '+' :: c :: rest =>
      if (letter = 'e' ∨ letter = 'E') ∧ c.isDigit then
        (natOf 10 ((c :: rest).takeWhile Char.isDigit), rest.dropWhile Char.isDigit)
      else (0, text)
  | letter :: c :: rest =>
      if (letter = 'e' ∨ letter = 'E') ∧ c.isDigit then
        (natOf 10 ((c :: rest).takeWhile Char.isDigit), rest.dropWhile Char.isDigit)
      else (0, text)
  | _ => (0, text)

def read (text : List Char) : Literal :=
  let whole := text.takeWhile Char.isDigit
  let (fraction, behind) := match text.dropWhile Char.isDigit with
    | '.' :: rest => (rest.takeWhile Char.isDigit, rest.dropWhile Char.isDigit)
    | rest => ([], rest)
  let (power, rest) := exponent behind
  { whole, fraction, power, rest }

/-- The nearest binary number, unless the literal is too large. Powers of ten beyond the limit
make it too large or zero, whatever the digits are. -/
def nearest (literal : Literal) : Option Binary :=
  let digits := literal.whole ++ literal.fraction
  let limit : Int := 400 + digits.length
  let power := max (-limit) (min limit (literal.power - literal.fraction.length))
  Binary.nearest (Fraction.scale 10 power (natOf 10 digits, 1))

end Literal

end Rollout.Number
