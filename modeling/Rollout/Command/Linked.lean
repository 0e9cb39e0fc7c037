import Rollout.Command.Parser
import Rollout.Grammar.Linked

/-!
Matching statements against a grammar with links. Where a number is looked up that no keyword has,
links lead back to where they came from, or a path is cut behind its end, there is no result.
-/

namespace Rollout.Command

open Grammar (Linked)

/-- How far a statement has been matched. -/
structure Spot where
  /-- The last keyword. -/
  number : Nat
  /-- The names of the keywords so far. -/
  path : List String
  /-- How many slots of the last keyword are filled. -/
  filled : Nat
  arguments : List Argument
deriving DecidableEq, Repr

namespace Spot

def words (spot : Spot) : String := " ".intercalate spot.path

/-- The keywords right below a keyword. -/
def row (linked : Linked) (node : Grammar.Node) : Option (List Keyword) :=
  node.children.mapM fun number => (linked.nodes[number]?).map (·.keyword)

def start (linked : Linked) (number : Nat) : Option Spot := do
  let node ← linked.nodes[number]?
  some ⟨number, [node.keyword.name], 0, []⟩

/-- Takes one more word, into a slot if one is empty, else as a keyword. -/
def advance (linked : Linked) (spot : Spot) (word : Word) (line : Nat) :
    Option (Except ParseError Spot) := do
  let node ← linked.nodes[spot.number]?
  match node.keyword.slots[spot.filled]? with
  | some slot =>
      match takeValue slot word spot.words line with
      | .error problem => some (.error problem)
      | .ok value =>
          some (.ok { spot with
            filled := spot.filled + 1, arguments := spot.arguments ++ [⟨slot.name, value⟩] })
  | none =>
      let next ← match word with
        | .plain text => linked.pick text node.children
        | _ => some none
      match next with
      | some number => do
          let child ← linked.nodes[number]?
          some (.ok ⟨number, spot.path ++ [child.keyword.name], 0, spot.arguments⟩)
      | none => do
          let row ← row linked node
          some (.error (.unexpectedWord word.written spot.words (Match.expected row) line))

def advanceAll (linked : Linked) (line : Nat) (spot : Spot) :
    List Word → Option (Except ParseError Spot)
  | [] => some (.ok spot)
  | word :: rest => do
      match ← spot.advance linked word line with
      | .error problem => some (.error problem)
      | .ok spot => advanceAll linked line spot rest

/-- The first keyword on the way up that names a kind of object, and the words behind its own. -/
def objectOf (linked : Linked) (path : List String) (number : Nat) :
    Option (Option (String × List String)) := do
  let node ← linked.nodes[number]?
  if node.keyword.traits.primary then
    if node.keyword.level + 1 ≤ path.length then
      some (some (node.keyword.name, path.drop (node.keyword.level + 1)))
    else none
  else
    match node.parent with
    | none => some none
    | some parent => if parent < number then objectOf linked path parent else none

/-- The command, if the statement may end here. -/
def finish (linked : Linked) (spot : Spot) (ref : Option String) (statement : Statement) :
    Option (Except ParseError Command) := do
  let node ← linked.nodes[spot.number]?
  match node.keyword.slots[spot.filled]? with
  | some slot => some (.error (.missingArgument spot.words slot.name statement.line))
  | none =>
      let row ← row linked node
      if row.all (·.traits.optional) then do
        let object ← objectOf linked spot.path spot.number
        let root ← spot.path[0]?
        some (.ok {
          root := root
          path := spot.path
          object := object.map (·.1)
          clause := object.bind fun (_, after) => Clause.ofKeywords? after
          arguments := spot.arguments
          ref := ref
          text := statement.text
          line := statement.line })
      else
        let required := row.filter (fun keyword => !keyword.traits.optional)
        some (.error (.incomplete spot.words (Match.expected required) statement.line))

/-- Where the words of a statement lead, and the ref at its end. -/
def ofStatement (linked : Linked) (statement : Statement) :
    Option (Except ParseError (Spot × Option String)) :=
  match Word.ofText statement.text statement.line with
  | .error problem => some (.error problem)
  | .ok words =>
      let (words, ref) := detachRef words
      if ref = some "" then some (.error (.emptyRef statement.line))
      else match words with
        | [] => some (.error (.unknownCommand "" statement.line))
        | first :: rest => do
            let root ← match first with
              | .plain text => linked.root text
              | _ => some none
            match root with
            | none => some (.error (.unknownCommand first.text statement.line))
            | some number => do
                let spot ← start linked number
                match ← spot.advanceAll linked statement.line rest with
                | .error problem => some (.error problem)
                | .ok spot => some (.ok (spot, ref))

end Spot

end Rollout.Command

namespace Rollout.Grammar.Linked

open Command (Spot)

def ofStatement (linked : Linked) (statement : Statement) : Option (Except ParseError Command) := do
  match ← Spot.ofStatement linked statement with
  | .error problem => some (.error problem)
  | .ok (spot, ref) => spot.finish linked ref statement

def ofStatements (linked : Linked) : List Statement → Option (Except ParseError (List Command))
  | [] => some (.ok [])
  | statement :: rest => do
      match ← linked.ofStatement statement with
      | .error problem => some (.error problem)
      | .ok command => do
          let commands ← linked.ofStatements rest
          some (commands.map (command :: ·))

/-- The commands of a text, in order; the first statement that is none fails the whole. -/
def parse (linked : Linked) (text : String) : Option (Except ParseError (List Command)) :=
  match Statement.split text with
  | .error problem => some (.error problem)
  | .ok statements => linked.ofStatements statements

end Rollout.Grammar.Linked
