import Rollout.Text.Blank

/-!
Grammars. A grammar is a row of keywords, each with the grammar of what may follow it. It is kept
as a first-below, next-beside tree, so that every recursion on it is structural; `preorder` lists
its keywords and `ofOutline` builds it back from that list by the levels alone.
-/

namespace Rollout

inductive Slot.Kind where
  /-- Identifiers, separated by commas. -/
  | names
  /-- Pairs of a schema and an item, separated by commas; a part may be the wildcard. -/
  | qualifiedNames
  /-- A literal, or the path of a source file. -/
  | sqlText
  /-- A literal. -/
  | shellText
deriving DecidableEq, Repr

structure Slot where
  name : String
  description : String
  kind : Slot.Kind
deriving DecidableEq, Repr

/-- The kind goes with the name of the slot. -/
def Slot.Kind.ofName? : String → Option Slot.Kind
  | "schema-names" | "seed-names" => some .names
  | "item-names" => some .qualifiedNames
  | "sql" => some .sqlText
  | "cmd" => some .shellText
  | _ => none

structure Traits where
  /-- What stands above is complete without this keyword. -/
  optional : Bool := false
  /-- The keyword starts commands. -/
  root : Bool := false
  /-- The keyword names the kind of object. -/
  primary : Bool := false
  /-- Commands below have no effects. -/
  nonExec : Bool := false
  /-- The arguments are free text. -/
  extArgs : Bool := false
deriving DecidableEq, Repr

structure Keyword where
  name : String
  description : String
  /-- How many keywords stand above. -/
  level : Nat
  traits : Traits
  slots : List Slot
deriving DecidableEq, Repr

inductive Grammar where
  | nil
  | cons (keyword : Keyword) (below beside : Grammar)
deriving DecidableEq, Repr

/-- Are the two words the same up to the case of ASCII letters? -/
def sameWord (first second : String) : Bool :=
  first.toList.map Char.toLower == second.toList.map Char.toLower

namespace Grammar

/-- The keywords of the first row. -/
def row : Grammar → List Keyword
  | nil => []
  | cons keyword _ beside => keyword :: row beside

/-- The first keyword of the row with the given name, and what may follow it. -/
def find? (word : String) : Grammar → Option (Keyword × Grammar)
  | nil => none
  | cons keyword below beside =>
      if sameWord keyword.name word then some (keyword, below) else find? word beside

/-- A statement may end before this grammar: nothing in its row is required. -/
def mayEnd (below : Grammar) : Bool := below.row.all (·.traits.optional)

def append : Grammar → Grammar → Grammar
  | nil, more => more
  | cons keyword below beside, more => cons keyword below (append beside more)

/-- Every keyword, each before those below it. -/
def preorder : Grammar → List Keyword
  | nil => []
  | cons keyword below beside => keyword :: (preorder below ++ preorder beside)

/-- The leading part of the row that is deeper than a level. -/
def deeper (level : Nat) : Grammar → Grammar
  | nil => nil
  | cons keyword below beside =>
      if level < keyword.level then cons keyword below (deeper level beside) else nil

/-- The rest of the row after the part that is deeper than a level. -/
def afterDeeper (level : Nat) : Grammar → Grammar
  | nil => nil
  | cons keyword below beside =>
      if level < keyword.level then afterDeeper level beside else cons keyword below beside

/-- Reads an outline: below a keyword stand the keywords after it that are deeper. -/
def ofOutline : List Keyword → Grammar
  | [] => nil
  | keyword :: rest =>
      let later := ofOutline rest
      cons keyword (later.deeper keyword.level) (later.afterDeeper keyword.level)

/-- The keywords that a list of words leads through, the first of them looked up in the given
row, and what may follow the last; or the place of the first word that leads nowhere. -/
def walk (grammar : Grammar) : List String → Except Nat (List Keyword × Grammar)
  | [] => .ok ([], grammar)
  | word :: words =>
      match grammar.find? word with
      | none => .error 0
      | some (keyword, below) =>
          match below.walk words with
          | .ok (passed, last) => .ok (keyword :: passed, last)
          | .error place => .error (place + 1)

/-- A second name for a root keyword: unless it is taken, a copy of everything below the
template stands under the new name at the end of the row. -/
def addTwin (name description template : String) (grammar : Grammar) : Grammar :=
  match grammar.find? template with
  | none => grammar
  | some (keyword, below) =>
      if (grammar.find? name).isSome then grammar
      else grammar.append
        (cons { keyword with name := name, description := description } below nil)

/-- Whatever can be created can be dropped, and whatever can be granted can be revoked. -/
def addTwins (grammar : Grammar) : Grammar :=
  (grammar.addTwin "drop" "Drop database objects" "create").addTwin
    "revoke" "Revoke privileges" "grant"

def label (keyword : Keyword) : String :=
  let name := if keyword.traits.optional then s!"[{keyword.name}]" else keyword.name
  keyword.slots.foldl (fun text slot => text ++ " <" ++ slot.name ++ ">") name

def labelWidth : Nat := 32

def helpLine (keyword : Keyword) : String :=
  let indent := String.ofList (List.replicate (2 * keyword.level) ' ')
  let text := label keyword
  let fill := String.ofList (List.replicate (labelWidth - text.length) ' ')
  indent ++ text ++ fill ++ " " ++ keyword.description ++ "\n"

/-- Help text: one line for each keyword, indented by its level. -/
def describe (grammar : Grammar) : String :=
  grammar.preorder.foldl (fun text keyword => text ++ helpLine keyword) ""

end Grammar

end Rollout
