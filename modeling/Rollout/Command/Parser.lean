import Rollout.Command
import Rollout.Grammar.Basic
import Rollout.Word

/-!
Matching statements against a grammar. The words of a statement lead from a root keyword down;
whatever slots a keyword has take the words right after it.
-/

namespace Rollout.Command

open Text (splitAt)

/-- Refuses a name that cannot stand in a list of the given kind. -/
def checkName (kind : Slot.Kind) (line : Nat) (name : String) : Except ParseError String :=
  if name = "" then .error (.malformedName name "empty list element" line)
  else if kind = .names then
    if Name.isIdentifier name then .ok name
    else .error (.malformedName name "not an identifier" line)
  else
    match Name.qualified? name with
    | none => .error (.malformedName name "expected schema.item" line)
    | some (schema, item) =>
        if [schema, item].all (fun part => part == Name.wildcard || Name.isIdentifier part) then
          .ok name
        else .error (.malformedName name "not an identifier" line)

/-- The names of a list, each checked; the first bad one counts. -/
def checkNames (kind : Slot.Kind) (line : Nat) : List String → Except ParseError (List String)
  | [] => .ok []
  | name :: rest =>
      match checkName kind line name with
      | .error problem => .error problem
      | .ok name => (checkNames kind line rest).map (name :: ·)

/-- The value that a word gives to a slot; `after` is the command so far. -/
def takeValue (slot : Slot) (word : Word) (after : String) (line : Nat) :
    Except ParseError Value :=
  let unexpected := ParseError.unexpectedWord word.text after s!"<{slot.name}>" line
  match slot.kind with
  | .names | .qualifiedNames =>
      if word.isLiteral || word.isRef then .error unexpected
      else (checkNames slot.kind line (splitAt ',' word.text)).map .list
  | .sqlText =>
      match word with
      | .literal text => .ok (.raw text)
      | .plain text | .qualified text => .ok (.path text)
      | _ => .error unexpected
  | .shellText =>
      match word with
      | .literal text => .ok (.raw text)
      | _ => .error unexpected

structure Match where
  /-- The keywords so far, last first. -/
  passed : List Keyword
  /-- What may follow the last of them. -/
  below : Grammar
  /-- The slots of the last keyword that are still empty. -/
  slots : List Slot
  arguments : List Argument

namespace Match

def start (keyword : Keyword) (below : Grammar) : Match :=
  ⟨[keyword], below, keyword.slots, []⟩

def path (spot : Match) : List String := (spot.passed.map (·.name)).reverse

def words (spot : Match) : String := " ".intercalate spot.path

/-- What error messages say could have come next. -/
def expected (keywords : List Keyword) : String :=
  match keywords with
  | [] => "end of command"
  | _ => ", ".intercalate (keywords.map (·.name))

/-- Takes one more word, into a slot if one is empty, else as a keyword. -/
def advance (spot : Match) (word : Word) (line : Nat) : Except ParseError Match :=
  match spot.slots with
  | slot :: slots =>
      match takeValue slot word spot.words line with
      | .error problem => .error problem
      | .ok value =>
          .ok { spot with slots := slots, arguments := spot.arguments ++ [⟨slot.name, value⟩] }
  | [] =>
      let next := match word with
        | .plain text => spot.below.find? text
        | _ => none
      match next with
      | some (keyword, below) =>
          .ok ⟨keyword :: spot.passed, below, keyword.slots, spot.arguments⟩
      | none =>
          .error (.unexpectedWord word.written spot.words (expected spot.below.row) line)

def advanceAll (line : Nat) (spot : Match) : List Word → Except ParseError Match
  | [] => .ok spot
  | word :: rest =>
      match spot.advance word line with
      | .error problem => .error problem
      | .ok spot => advanceAll line spot rest

/-- The deepest keyword that names a kind of object, and the keywords after it; the keywords are
given last first. -/
def objectOf (after : List String) : List Keyword → Option (String × List String)
  | [] => none
  | keyword :: above =>
      if keyword.traits.primary then some (keyword.name, after)
      else objectOf (keyword.name :: after) above

/-- The command, if the statement may end here. -/
def finish (spot : Match) (ref : Option String) (statement : Statement) :
    Except ParseError Command :=
  match spot.slots with
  | slot :: _ => .error (.missingArgument spot.words slot.name statement.line)
  | [] =>
      if spot.below.mayEnd then
        let object := objectOf [] spot.passed
        .ok {
          root := spot.path.headD ""
          path := spot.path
          object := object.map (·.1)
          clause := object.bind fun (_, after) => Clause.ofKeywords? after
          arguments := spot.arguments
          ref := ref
          text := statement.text
          line := statement.line }
      else
        let required := spot.below.row.filter (fun keyword => !keyword.traits.optional)
        .error (.incomplete spot.words (expected required) statement.line)

end Match

/-- A ref at the end of a statement is set apart from its other words. -/
def detachRef (words : List Word) : List Word × Option String :=
  match words.getLast? with
  | some (.ref name) => (words.dropLast, some name)
  | _ => (words, none)

def ofStatement (grammar : Grammar) (statement : Statement) : Except ParseError Command :=
  match Word.ofText statement.text statement.line with
  | .error problem => .error problem
  | .ok words =>
      let (words, ref) := detachRef words
      if ref = some "" then .error (.emptyRef statement.line)
      else match words with
        | [] => .error (.unknownCommand "" statement.line)
        | first :: rest =>
            let root := match first with
              | .plain text => grammar.find? text
              | _ => none
            match root with
            | none => .error (.unknownCommand first.text statement.line)
            | some (keyword, below) =>
                match (Match.start keyword below).advanceAll statement.line rest with
                | .error problem => .error problem
                | .ok spot => spot.finish ref statement

def ofStatements (grammar : Grammar) : List Statement → Except ParseError (List Command)
  | [] => .ok []
  | statement :: rest =>
      match ofStatement grammar statement with
      | .error problem => .error problem
      | .ok command => (ofStatements grammar rest).map (command :: ·)

/-- The commands of a text, in order; the first statement that is none fails the whole. -/
def parse (grammar : Grammar) (text : String) : Except ParseError (List Command) :=
  match Statement.split text with
  | .error problem => .error problem
  | .ok statements => ofStatements grammar statements

end Rollout.Command
