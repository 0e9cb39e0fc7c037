/-!
Commands: what a statement says once its words have been matched against a grammar.
-/

namespace Rollout

inductive Clause where
  | within
  | except
  | exceptIn
  | on
  | withSeeds
  | withoutSeeds
deriving DecidableEq, Repr

namespace Clause

/-- The clause a chain of keywords below the object spells. -/
def ofKeywords? (keywords : List String) : Option Clause :=
  match " ".intercalate (keywords.map String.toLower) with
  | "in" => some within
  | "except" => some except
  | "except in" => some exceptIn
  | "on" => some on
  | "with" => some withSeeds
  | "without" => some withoutSeeds
  | _ => none

/-- Does the clause drop the listed names, rather than keep them? -/
def isExclusion : Clause → Bool
  | except | exceptIn | withoutSeeds => true
  | within | on | withSeeds => false

def written : Clause → String
  | within => "in"
  | except => "except"
  | exceptIn => "except in"
  | on => "on"
  | withSeeds => "with"
  | withoutSeeds => "without"

end Clause

inductive Value where
  | list (names : List String)
  /-- A literal, without its marks. -/
  | raw (text : String)
  /-- The path of a source file. -/
  | path (text : String)
deriving DecidableEq, Repr

structure Argument where
  slot : String
  value : Value
deriving DecidableEq, Repr

structure Command where
  root : String
  /-- The keywords from the root to the last one, as the grammar spells them. -/
  path : List String
  /-- The deepest keyword on the path that names a kind of object. -/
  object : Option String
  clause : Option Clause
  arguments : List Argument
  /-- The revision of the source tree to read. -/
  ref : Option String
  /-- The statement as written. -/
  text : String
  line : Nat
deriving DecidableEq, Repr

namespace Command

def terminal (command : Command) : String := command.path.getLastD command.root

/-- The value of the first argument in a slot. -/
def value? (command : Command) (slot : String) : Option Value :=
  (command.arguments.find? (·.slot == slot)).map (·.value)

/-- The names in a slot; none if the slot holds no list. -/
def names (command : Command) (slot : String) : List String :=
  match command.value? slot with
  | some (.list names) => names
  | _ => []

def isList (command : Command) : Bool := command.root == "list"

def schemaNames (command : Command) : List String := command.names "schema-names"

def itemNames (command : Command) : List String := command.names "item-names"

def seedNames (command : Command) : List String := command.names "seed-names"

end Command

end Rollout
