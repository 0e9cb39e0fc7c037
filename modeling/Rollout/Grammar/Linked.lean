import Rollout.Grammar.Outline

/-!
Grammars whose keywords are numbered and know each other by their numbers. A keyword is numbered
when it is entered, links to the one above it and to those right below it, and hangs from the latest
that is open one level up. Where a number is looked up that no keyword has, or links lead back to
where they came from, there is no result.
-/

namespace Rollout.Grammar

structure Node where
  keyword : Keyword
  parent : Option Nat
  children : List Nat
deriving DecidableEq, Repr

structure Linked where
  nodes : List Node
  roots : List Nat
deriving DecidableEq, Repr

namespace Linked

def update? (linked : Linked) (number : Nat) (change : Node → Node) : Option Linked :=
  if number < linked.nodes.length then
    some { linked with nodes := linked.nodes.modify number change }
  else none

/-- Enters a keyword under the next number. -/
def push (linked : Linked) (keyword : Keyword) (parent : Option Nat) : Linked :=
  { linked with nodes := linked.nodes ++ [⟨keyword, parent, []⟩] }

/-- Puts a keyword behind the others below its parent, or behind the other roots. -/
def hang (linked : Linked) (number : Nat) : Option Nat → Option Linked
  | some parent => linked.update? parent fun node =>
      { node with children := node.children ++ [number] }
  | none => some { linked with roots := linked.roots ++ [number] }

/-- The first with the given name, of the keywords with the given numbers. -/
def pick (linked : Linked) (word : String) : List Nat → Option (Option Nat)
  | [] => some none
  | number :: rest => do
      let node ← linked.nodes[number]?
      if sameWord node.keyword.name word then some (some number) else linked.pick word rest

def root (linked : Linked) (word : String) : Option (Option Nat) := linked.pick word linked.roots

mutual

/-- Enters a keyword and all below it once more, with the number that the copy has. What is copied
stands before the given number. -/
def clone (linked : Linked) (before source : Nat) (parent : Option Nat) :
    Option (Linked × Nat) := do
  let node ← linked.nodes[source]?
  let number := linked.nodes.length
  let linked ← (linked.push node.keyword parent).cloneAll before source number node.children
  some (linked, number)
termination_by (before - source, 1, 0)

/-- Copies of keywords that stand below another are put below a keyword, one after another. -/
def cloneAll (linked : Linked) (before above parent : Nat) (sources : List Nat) :
    Option Linked :=
  match sources with
  | [] => some linked
  | source :: rest =>
      if above < source ∧ source < before then do
        let (linked, number) ← linked.clone before source (some parent)
        let linked ← linked.hang number (some parent)
        linked.cloneAll before above parent rest
      else none
termination_by (before - above, 0, sources.length)

end

/-- A second name for a root keyword: unless it is taken, a copy of everything below the
template stands under the new name at the end of the row. -/
def addTwin (name description template : String) (linked : Linked) : Option Linked := do
  match ← linked.root template with
  | none => some linked
  | some source =>
      match ← linked.root name with
      | some _ => some linked
      | none =>
          let (linked, number) ← linked.clone linked.nodes.length source none
          let linked ← linked.update? number fun node =>
            { node with keyword :=
                { node.keyword with name := name, description := description } }
          linked.hang number none

def addTwins (linked : Linked) : Option Linked := do
  let linked ← linked.addTwin "drop" "Drop database objects" "create"
  linked.addTwin "revoke" "Revoke privileges" "grant"

/-- Goes up from a keyword to the root that it hangs from. -/
def rootOf (linked : Linked) (number : Nat) : Option Nat := do
  let node ← linked.nodes[number]?
  match node.parent with
  | none => some number
  | some parent => if parent < number then linked.rootOf parent else none

/-- A grammar in the making. -/
structure Draft where
  linked : Linked
  /-- The keywords that are open to stand above others, the root first. -/
  stack : List Nat
deriving DecidableEq, Repr

def Draft.enter (draft : Draft) : Entry → Option Draft
  | .keyword keyword => do
      let stack := draft.stack.take keyword.level
      let parent := stack.getLast?
      let number := draft.linked.nodes.length
      let linked ← (draft.linked.push keyword parent).hang number parent
      some ⟨linked, stack ++ [number]⟩
  | .slot level slot => do
      let owner ← draft.stack[level]?
      let linked ← draft.linked.update? owner fun node =>
        { node with keyword := { node.keyword with slots := node.keyword.slots ++ [slot] } }
      some { draft with linked := linked }

def readLines (number : Nat) (draft : Draft) :
    List (List Char) → Option (Except OutlineError Draft)
  | [] => some (.ok draft)
  | line :: rest =>
      match readEntry draft.stack.length line with
      | .error fault => some (.error ⟨number, fault⟩)
      | .ok none => readLines (number + 1) draft rest
      | .ok (some entry) => do readLines (number + 1) (← draft.enter entry) rest

/-- The grammar that the lines of a text declare. -/
def declared (text : String) : Option (Except OutlineError Linked) := do
  let read ← readLines 1 ⟨⟨[], []⟩, []⟩ (Text.lineChars text.toList)
  some (read.map (·.linked))

def ofText (text : String) : Option (Except OutlineError Linked) := do
  match ← declared text with
  | .error error => some (.error error)
  | .ok linked => some (.ok (← linked.addTwins))

end Linked

end Rollout.Grammar
