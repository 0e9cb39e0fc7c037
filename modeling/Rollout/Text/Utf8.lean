/-!
Reading bytes as UTF-8. Where bytes begin no character, the longest stretch of them that could
still have begun one is a single fault.
-/

namespace Rollout.Text.Utf8

structure Pending where
  /-- The bits so far. -/
  bits : Nat
  /-- How many bytes are owed. -/
  owed : Nat
  /-- The least and the greatest value the next byte may have. -/
  low : Nat
  high : Nat
deriving DecidableEq, Repr

/-- What a byte between characters does: it is a character or a fault, or it begins a character. -/
def first (byte : Nat) : List (Option Char) × Option Pending :=
  if byte ≤ 0x7F then ([some (Char.ofNat byte)], none)
  else if byte < 0xC2 then ([none], none)
  else if byte ≤ 0xDF then ([], some ⟨byte - 0xC0, 1, 0x80, 0xBF⟩)
  else if byte = 0xE0 then ([], some ⟨0, 2, 0xA0, 0xBF⟩)
  else if byte = 0xED then ([], some ⟨0xD, 2, 0x80, 0x9F⟩)
  else if byte ≤ 0xEF then ([], some ⟨byte - 0xE0, 2, 0x80, 0xBF⟩)
  else if byte = 0xF0 then ([], some ⟨0, 3, 0x90, 0xBF⟩)
  else if byte ≤ 0xF3 then ([], some ⟨byte - 0xF0, 3, 0x80, 0xBF⟩)
  else if byte = 0xF4 then ([], some ⟨4, 3, 0x80, 0x8F⟩)
  else ([none], none)

/-- One byte: what is complete with it, and what is pending after it. A byte that cannot go on
with the pending character makes a fault of that one and stands between characters itself. -/
def step (pending : Option Pending) (byte : Nat) : List (Option Char) × Option Pending :=
  match pending with
  | none => first byte
  | some pending =>
      if pending.low ≤ byte ∧ byte ≤ pending.high then
        let bits := pending.bits * 64 + (byte - 0x80)
        if pending.owed = 1 then ([some (Char.ofNat bits)], none)
        else ([], some ⟨bits, pending.owed - 1, 0x80, 0xBF⟩)
      else
        let (found, after) := first byte
        (none :: found, after)

/-- The characters of the bytes, with `none` for every fault. -/
def units (pending : Option Pending) : List UInt8 → List (Option Char)
  | [] => if pending.isSome then [none] else []
  | byte :: rest =>
      let (found, after) := step pending byte.toNat
      found ++ units after rest

/-- The text, if there is no fault. -/
def decode (bytes : List UInt8) : Option String :=
  ((units none bytes).mapM id).map String.ofList

/-- How many bytes stand before the first fault; all of them if there is none. -/
def validLength (bytes : List UInt8) : Nat :=
  ((units none bytes).takeWhile Option.isSome).foldl
    (fun length unit => length + (unit.getD ' ').utf8Size) 0

def replacement : Char := '\uFFFD'

def decodeLossy (bytes : List UInt8) : String :=
  String.ofList ((units none bytes).map (·.getD replacement))

end Rollout.Text.Utf8
