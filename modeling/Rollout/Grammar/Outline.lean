import Rollout.Text.Pieces
import Rollout.Grammar.Basic

/-!
Grammars written as text. A line is a keyword, its description and its traits, separated by
vertical bars; two blanks of indentation put it below the line above. A line that starts with a
hyphen is an argument slot of the keyword one level up.
-/

namespace Rollout.Grammar

inductive OutlineFault where
  | oddIndentation
  | strayArgument
  | unknownSlot (name : String)
  | skippedLevel
  | missingName
  | unknownTrait (name : String)
  | misplacedRoot
deriving DecidableEq, Repr

structure OutlineError where
  line : Nat
  fault : OutlineFault
deriving DecidableEq, Repr

def OutlineFault.message : OutlineFault → String
  | oddIndentation => "indentation must be a multiple of two"
  | strayArgument => "argument without a parent command"
  | unknownSlot name => s!"unknown argument slot '{name}'"
  | skippedLevel => "indentation skips a level"
  | missingName => "missing command name"
  | unknownTrait name => s!"unknown property '{name}'"
  | misplacedRoot => "only top-level commands may (and must) be root"

def OutlineError.message (error : OutlineError) : String :=
  s!"grammar line {error.line}: {error.fault.message}"

def Traits.set? (traits : Traits) : String → Option Traits
  | "optional" => some { traits with optional := true }
  | "root" => some { traits with root := true }
  | "primary" => some { traits with primary := true }
  | "non-exec" => some { traits with nonExec := true }
  | "ext-args" => some { traits with extArgs := true }
  | _ => none

/-- The traits in a list of names; empty names do not count. -/
def readTraits (traits : Traits) : List String → Except OutlineFault Traits
  | [] => .ok traits
  | name :: rest =>
      if name = "" then readTraits traits rest
      else match Traits.set? traits name with
        | some traits => readTraits traits rest
        | none => .error (.unknownTrait name)

def fields (separator : Char) (text : List Char) : List String :=
  (Text.pieces separator text).map fun field => String.ofList (Text.trim field)

/-- What a line adds to an outline. -/
inductive Entry where
  | keyword (keyword : Keyword)
  /-- A slot for the latest keyword at a level. -/
  | slot (level : Nat) (slot : Slot)
deriving DecidableEq, Repr

def readSlot (depth level : Nat) (text : List Char) : Except OutlineFault Entry :=
  if level = 0 ∨ depth < level then .error .strayArgument
  else
    let parts := fields '|' text
    let name := parts.headD ""
    match Slot.Kind.ofName? name with
    | none => .error (.unknownSlot name)
    | some kind => .ok (.slot (level - 1) ⟨name, parts.getD 1 "", kind⟩)

def readKeyword (depth level : Nat) (text : List Char) : Except OutlineFault Entry :=
  if depth < level then .error .skippedLevel
  else
    let parts := fields '|' text
    let name := parts.headD ""
    if name = "" then .error .missingName
    else
      match readTraits {} (fields ',' (parts.getD 2 "").toList) with
      | .error fault => .error fault
      | .ok traits =>
          if traits.root ≠ decide (level = 0) then .error .misplacedRoot
          else .ok (.keyword ⟨name, parts.getD 1 "", level, traits, []⟩)

/-- What a line adds where `depth` keywords are open to stand above it; nothing if it is blank. -/
def readEntry (depth : Nat) (line : List Char) : Except OutlineFault (Option Entry) :=
  let body := Text.trim line
  if body = [] then .ok none
  else
    let indent := (line.takeWhile (· == ' ')).length
    if indent % 2 ≠ 0 then .error .oddIndentation
    else (match body with
      | '-' :: ' ' :: text => readSlot depth (indent / 2) text
      | _ => readKeyword depth (indent / 2) body).map some

/-- Gives a slot to the latest keyword at a level. The outline is read last line first. -/
def giveSlot (level : Nat) (slot : Slot) : List Keyword → List Keyword
  | [] => []
  | keyword :: earlier =>
      if keyword.level = level then { keyword with slots := keyword.slots ++ [slot] } :: earlier
      else keyword :: giveSlot level slot earlier

def nextLevel : List Keyword → Nat
  | [] => 0
  | latest :: _ => latest.level + 1

/-- Adds an entry to the outline read so far, which is kept last line first. -/
def enter (earlier : List Keyword) : Entry → List Keyword
  | .keyword keyword => keyword :: earlier
  | .slot level slot => giveSlot level slot earlier

def readLines (number : Nat) (earlier : List Keyword) :
    List (List Char) → Except OutlineError (List Keyword)
  | [] => .ok earlier
  | line :: rest =>
      match readEntry (nextLevel earlier) line with
      | .error fault => .error ⟨number, fault⟩
      | .ok none => readLines (number + 1) earlier rest
      | .ok (some entry) => readLines (number + 1) (enter earlier entry) rest

def ofText (text : String) : Except OutlineError Grammar :=
  (readLines 1 [] (Text.lineChars text.toList)).map fun outline =>
    (ofOutline outline.reverse).addTwins

end Rollout.Grammar
