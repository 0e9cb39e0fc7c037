/-!
Binary floating-point numbers with 53 bits, as a significand times a power of two, and the one
that is nearest to a fraction.
-/

namespace Rollout.Number

/-- The number `significand * 2 ^ power`, not negative. The significand has at most 53 bits, and
exactly 53 unless the power is the least. -/
structure Binary where
  significand : Nat
  power : Int
deriving DecidableEq, Repr

/-- A fraction: numerator and denominator. -/
abbrev Fraction := Nat × Nat

namespace Fraction

def atMost (first second : Fraction) : Bool := first.1 * second.2 ≤ second.1 * first.2

def below (first second : Fraction) : Bool := first.1 * second.2 < second.1 * first.2

def scale (base : Nat) (power : Int) (fraction : Fraction) : Fraction :=
  if 0 ≤ power then (fraction.1 * Nat.pow base power.toNat, fraction.2)
  else (fraction.1, fraction.2 * Nat.pow base (-power).toNat)

/-- The nearest whole number; half goes to the even one. -/
def rounded (fraction : Fraction) : Nat :=
  let whole := fraction.1 / fraction.2
  let twice := 2 * (fraction.1 % fraction.2)
  if twice < fraction.2 ∨ (twice = fraction.2 ∧ whole % 2 = 0) then whole else whole + 1

end Fraction

namespace Binary

/-- The least power of two that a number may have, and the greatest. -/
def leastPower : Int := -1074
def greatestPower : Int := 971

def leadingBit : Nat := Nat.pow 2 52

/-- The nearest number, unless the fraction is too large for all. -/
def nearest (fraction : Fraction) : Option Binary :=
  if fraction.1 = 0 then some ⟨0, leastPower⟩
  else
    let bits : Int := Int.ofNat fraction.1.log2 - Int.ofNat fraction.2.log2
    -- The quotient lies between the powers of two next to `bits`.
    let low := (fraction.scale 2 (52 - bits)).below (leadingBit, 1)
    let power := max (bits - if low then 53 else 52) leastPower
    let significand := (fraction.scale 2 (-power)).rounded
    let number : Binary :=
      if significand = 2 * leadingBit then ⟨leadingBit, power + 1⟩ else ⟨significand, power⟩
    if greatestPower < number.power then none else some number

def toFraction (number : Binary) : Fraction := Fraction.scale 2 number.power (number.significand, 1)

end Binary

end Rollout.Number
