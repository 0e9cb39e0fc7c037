import Rollout.Number.Literal
import Rollout.Number.Shortest
import Rollout.Text.Utf8

/-!
Values of SQL, how literals spell them and how they are shown.
-/

namespace Rollout.Sqlite

inductive Value where
  | null
  | integer (value : Int)
  /-- A floating-point number by sign and size; no size stands for infinity. -/
  | real (negative : Bool) (size : Option Number.Binary)
  | text (value : String)
  | bytes (value : List UInt8)
deriving DecidableEq, Repr

namespace Value

/-- Integers have 64 bits. -/
def greatestInteger : Nat := Nat.pow 2 63 - 1

/-- The value of a number, perhaps behind a minus sign. Whole numbers that are too large for
integers are floating-point numbers. -/
def ofNumber (negative : Bool) (written : List Char) : Value :=
  let signed (n : Nat) : Int := if negative then Int.negOfNat n else n
  match written with
  | '0' :: 'x' :: digits => hexadecimal signed digits
  | '0' :: 'X' :: digits => hexadecimal signed digits
  | digits =>
      let size := Number.natOf 10 digits
      if digits.all Char.isDigit ∧ size ≤ greatestInteger + if negative then 1 else 0 then
        integer (signed size)
      else real negative (Number.Literal.read digits).nearest
where
  hexadecimal (signed : Nat → Int) (digits : List Char) : Value :=
    let bits := Number.natOf 16 digits % Nat.pow 2 64
    integer (if bits ≤ greatestInteger then signed bits else signed bits - signed (Nat.pow 2 64))

def bytesOf : List Char → List UInt8
  | high :: low :: rest =>
      (Number.digitValue high * 16 + Number.digitValue low).toUInt8 :: bytesOf rest
  | _ => []

/-- The value as text; null has none. -/
def shown : Value → Option String
  | null => none
  | integer value => some (if value < 0 then s!"-{value.natAbs}" else s!"{value.natAbs}")
  | real negative size =>
      let size := match size with
        | some size => size.shortest.written
        | none => "inf"
      some (if negative then "-" ++ size else size)
  | text value => some value
  | bytes value => some (Text.Utf8.decodeLossy value)

/-- The integer that a text spells, with a sign or without. -/
def integerOf? (text : String) : Option Int :=
  let (negative, digits) := match text.toList with
    | '-' :: digits => (true, digits)
    | '+' :: digits => (false, digits)
    | digits => (false, digits)
  if digits ≠ [] ∧ digits.all Char.isDigit then
    some (if negative then Int.negOfNat (Number.natOf 10 digits) else Number.natOf 10 digits)
  else none

end Value

end Rollout.Sqlite
