/-!
Escapes in what scripts print: a backslash and a letter, or a backslash and octal digits, stand
for a byte.
-/

namespace Rollout.Shell.Escape

/-- The byte that a letter stands for after a backslash. -/
def letter? : Char → Option UInt8
  | 'a' => some 7
  | 'b' => some 8
  | 'f' => some 12
  | 'n' => some 10
  | 'r' => some 13
  | 't' => some 9
  | 'v' => some 11
  | '\\' => some 92
  | _ => none

def isOctal (c : Char) : Bool := '0' ≤ c && c ≤ '7'

/-- The octal digits at the start of a text, at most so many. -/
def octal (most : Nat) (text : List Char) : List Char := (text.take most).takeWhile isOctal

def octalValue (digits : List Char) : UInt8 :=
  (digits.foldl (fun value digit => value * 8 + (digit.toNat - '0'.toNat)) 0).toUInt8

def bytes (c : Char) : List UInt8 := String.utf8EncodeChar c

/-- What a backslash and the text after it stand for, and how much of the text they take up. In
arguments octal digits follow a zero, in formats they need not. -/
def afterBackslash (inFormat : Bool) (text : List Char) : List UInt8 × Nat :=
  match text with
  | [] => ([92], 0)
  | c :: rest =>
      match letter? c with
      | some byte => ([byte], 1)
      | none =>
          if c = '0' ∧ !inFormat then
            let digits := octal 3 rest
            ([octalValue digits], digits.length + 1)
          else if isOctal c ∧ inFormat then
            let digits := octal 3 text
            ([octalValue digits], digits.length)
          else ([92], 0)

/-- The bytes of a text with its escapes resolved, after passing over `skip` characters. -/
def resolve (inFormat : Bool) : Nat → List Char → List UInt8
  | _, [] => []
  | skip + 1, _ :: rest => resolve inFormat skip rest
  | 0, c :: rest =>
      if c = '\\' then
        let (found, taken) := afterBackslash inFormat rest
        found ++ resolve inFormat taken rest
      else bytes c ++ resolve inFormat 0 rest

end Rollout.Shell.Escape
