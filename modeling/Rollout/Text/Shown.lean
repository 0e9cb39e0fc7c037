import Rollout.Text.Blank

/-!
Text as it is shown to someone who looks for faults: in double quotes, with escapes for what
would not be seen.
-/

namespace Rollout.Text.Shown

/-- Characters that are not seen or that change the character before them: controls, white space
other than the blank, marks that change the direction of text, and combining marks. -/
def isHidden (c : Char) : Bool :=
  let code := c.toNat
  code < 0x20 || (0x7F ≤ code && code < 0xA0) || (isBlank c && c != ' ') || code == 0xAD ||
    (0x300 ≤ code && code ≤ 0x36F) || (0x200B ≤ code && code ≤ 0x200F) ||
    (0x202A ≤ code && code ≤ 0x202E) || (0x2060 ≤ code && code ≤ 0x206F) ||
    (0xE000 ≤ code && code ≤ 0xF8FF) || (0xFE00 ≤ code && code ≤ 0xFE0F) || code == 0xFEFF ||
    (0xFFF0 ≤ code && code ≤ 0xFFFB) || 0xE0000 ≤ code

def hexDigits (code : Nat) : List Char := Nat.toDigits 16 code

def escape (c : Char) : List Char :=
  match c with
  | '\x00' => ['\\', '0']
  | '\t' => ['\\', 't']
  | '\n' => ['\\', 'n']
  | '\r' => ['\\', 'r']
  | '"' => ['\\', '"']
  | '\\' => ['\\', '\\']
  | _ => if isHidden c then ['\\', 'u', '\x7b'] ++ hexDigits c.toNat ++ ['\x7d'] else [c]

def quoted (text : String) : String :=
  String.ofList ('"' :: (text.toList.flatMap escape ++ ['"']))

def bracketed (items : List String) : String := "[" ++ ", ".intercalate items ++ "]"

def optional : Option String → String
  | none => "None"
  | some text => "Some(" ++ quoted text ++ ")"

end Rollout.Text.Shown
