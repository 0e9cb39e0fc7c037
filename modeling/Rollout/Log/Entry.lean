import Rollout.Text.Shown

/-!
Log entries and the lines they are written as.
-/

namespace Rollout

inductive LogLevel where
  | info
  | warn
deriving DecidableEq, Repr

def LogLevel.name : LogLevel → String
  | info => "INFO"
  | warn => "WARN"

/-- The part of the program that an entry comes from. -/
inductive LogOrigin where
  | program
  | session
  | steps
  | dryRun
deriving DecidableEq, Repr

def LogOrigin.name : LogOrigin → String
  | program => "ddsl"
  | session => "ddsl_engine::session"
  | steps => "ddsl_engine::processor"
  | dryRun => "ddsl::dry_run"

inductive LogValue where
  | plain (text : String)
  /-- A text that is shown in quotes. -/
  | quoted (text : String)
deriving DecidableEq, Repr

namespace LogValue

def text : LogValue → String
  | plain text | quoted text => text

def written : LogValue → String
  | plain text => text
  | quoted text => Text.Shown.quoted text

end LogValue

structure LogEntry where
  level : LogLevel
  message : String
  fields : List (String × LogValue) := []
  origin : LogOrigin := .steps
deriving DecidableEq, Repr

namespace LogEntry

/-- Controls that a terminal would obey are spelled out. -/
def escape (c : Char) : List Char :=
  match c with
  | '\x1b' => "\\x1b".toList
  | '\x07' => "\\x07".toList
  | '\x08' => "\\x08".toList
  | '\x0c' => "\\x0c".toList
  | '\x7f' => "\\x7f".toList
  | _ =>
      if 0x80 ≤ c.toNat ∧ c.toNat ≤ 0x9F then
        ['\\', 'u', '\x7b'] ++ Text.Shown.hexDigits c.toNat ++ ['\x7d']
      else [c]

def line (entry : LogEntry) : String :=
  let message := String.ofList (entry.message.toList.flatMap escape)
  let fields := entry.fields.map fun (name, value) => s!" {name}={value.written}"
  s!" {entry.level.name} {message}" ++ String.join fields ++ "\n"

end LogEntry

end Rollout
