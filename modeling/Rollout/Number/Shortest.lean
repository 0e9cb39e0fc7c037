import Rollout.Number.Binary

/-!
The shortest decimal that reads back as a given binary number; of several the nearest, and of two
equally near the greater. It is written without an exponent.
-/

namespace Rollout.Number

/-- The decimal `digits * 10 ^ power`. -/
structure Decimal where
  digits : Nat
  power : Int
deriving DecidableEq, Repr

def Decimal.toFraction (decimal : Decimal) : Fraction :=
  Fraction.scale 10 decimal.power (decimal.digits, 1)

def decimalLength (n : Nat) : Nat := (Nat.toDigits 10 n).length

/-- The power of ten of the first digit of a fraction that is not zero. -/
def leadingPower (fraction : Fraction) : Int :=
  if fraction.2 ≤ fraction.1 then Int.ofNat (decimalLength (fraction.1 / fraction.2)) - 1
  else
    let inverse := (fraction.2 + fraction.1 - 1) / fraction.1
    Int.negOfNat (decimalLength (inverse - 1))

namespace Binary

/-- Four times the number, so that the ends of the interval around it are whole multiples of the
same power of two. -/
def fourfold (number : Binary) : Nat := 4 * number.significand

/-- Does reading the decimal give the number? Everything does that lies nearer to it than to its
neighbours; the two middles do if the significand is even. -/
def isReadFrom (number : Binary) (decimal : Decimal) : Bool :=
  let isPowerOfTwo := number.significand = leadingBit ∧ leastPower < number.power
  let quarter (n : Nat) : Fraction := Fraction.scale 2 (number.power - 2) (n, 1)
  let low := quarter (number.fourfold - if isPowerOfTwo then 1 else 2)
  let high := quarter (number.fourfold + 2)
  let value := decimal.toFraction
  if number.significand % 2 = 0 then low.atMost value && value.atMost high
  else low.below value && value.below high

/-- The decimal with so many digits that is nearest to the number, if it reads back. -/
def withDigits (number : Binary) (leading : Int) (count : Nat) : Option Decimal :=
  let unit := leading - (count - 1)
  let value := number.toFraction
  let scaled := value.scale 10 (-unit)
  let lower : Decimal := ⟨scaled.1 / scaled.2, unit⟩
  let upper : Decimal := ⟨scaled.1 / scaled.2 + 1, unit⟩
  let isNearerLower := 2 * (scaled.1 % scaled.2) < scaled.2
  let candidates := if isNearerLower then [lower, upper] else [upper, lower]
  candidates.find? number.isReadFrom

/-- The shortest decimal. Seventeen digits always suffice. -/
def shortest (number : Binary) : Decimal :=
  if number.significand = 0 then ⟨0, 0⟩
  else
    let leading := leadingPower number.toFraction
    let found := (List.range 17).findSome? fun count => number.withDigits leading (count + 1)
    found.getD ⟨number.significand, 0⟩

end Binary

/-- Digits with a decimal point before the last `places` of them; a point with nothing but zeros
behind it is left out. -/
def pointed (digits : List Char) (places : Nat) : List Char :=
  let padded := List.replicate (places + 1 - digits.length) '0' ++ digits
  let whole := padded.take (padded.length - places)
  let fraction := ((padded.drop (padded.length - places)).reverse.dropWhile (· = '0')).reverse
  if fraction = [] then whole else whole ++ '.' :: fraction

def Decimal.written (decimal : Decimal) : String :=
  let digits := Nat.toDigits 10 decimal.digits
  if 0 ≤ decimal.power then
    if decimal.digits = 0 then "0"
    else String.ofList (digits ++ List.replicate decimal.power.toNat '0')
  else String.ofList (pointed digits (-decimal.power).toNat)

end Rollout.Number
