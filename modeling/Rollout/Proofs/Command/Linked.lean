import Mathlib.Data.List.Forall2
import Rollout.Command.Linked
import Rollout.Proofs.Grammar.Forest
import Rollout.Proofs.Outcome

/-!
Statements are matched against the links of a grammar as they are against the grammar. No number is
looked up in vain; a statement leads down to a keyword, and what its command says of the path and
the object can be read off on the way up from there.
-/

namespace Rollout.Command

open Grammar (Linked)

variable {grammar : Grammar} {linked : Linked}

/-- A spot among the links at which a match against the grammar stands. -/
structure Spot.Tracks (linked : Linked) (spot : Spot) (found : Match) (node : Grammar.Node)
    (above : List Grammar.Node) : Prop where
  path : spot.path = found.path
  arguments : spot.arguments = found.arguments
  held : linked.nodes[spot.number]? = some node
  way : linked.Above spot.number above
  passed : found.passed = (node :: above).map (·.keyword)
  children : node.children = found.below.rowFrom (spot.number + 1)
  below : linked.Holds (found.below.numbered (some spot.number) (spot.number + 1))
  slots : found.slots = node.keyword.slots.drop spot.filled

theorem row_numbered {children : Grammar} {parent : Option Nat} {next : Nat}
    (holds : linked.Holds (children.numbered parent next)) :
    (children.rowFrom next).mapM (fun number => (linked.nodes[number]?).map (·.keyword)) =
      some children.row := by
  induction children generalizing next with
  | nil => rfl
  | cons keyword below beside _ further =>
      obtain ⟨held, -, others⟩ := Linked.holds_numbered_cons.mp holds
      rw [Grammar.rowFrom, List.mapM_cons, held, further others]
      rfl

theorem drop_slots {slots : List Slot} {filled : Nat} :
    slots.drop filled = match slots[filled]? with
      | some slot => slot :: slots.drop (filled + 1)
      | none => [] := by
  cases found : slots[filled]? with
  | none => exact List.drop_eq_nil_of_le (List.getElem?_eq_none_iff.mp found)
  | some slot =>
      obtain ⟨within, same⟩ := List.getElem?_eq_some_iff.mp found
      rw [List.drop_eq_getElem_cons within, same]

namespace Spot.Tracks

variable {spot : Spot} {found : Match} {node : Grammar.Node} {above : List Grammar.Node}

theorem row (tracks : Tracks linked spot found node above) :
    Spot.row linked node = some found.below.row := by
  rw [Spot.row, tracks.children]
  exact row_numbered tracks.below

theorem words (tracks : Tracks linked spot found node above) : spot.words = found.words := by
  rw [Spot.words, tracks.path, Match.words]

/-- A step down is a step to a keyword that is there. -/
theorem down (tracks : Tracks linked spot found node above) {number : Nat} {keyword : Keyword}
    {below : Grammar}
    (holds : linked.Holds ((Grammar.cons keyword below .nil).numbered (some spot.number) number)) :
    ∃ child, linked.nodes[number]? = some child ∧ child.keyword = keyword ∧
      Tracks linked ⟨number, spot.path ++ [keyword.name], 0, spot.arguments⟩
        ⟨keyword :: found.passed, below, keyword.slots, found.arguments⟩ child (node :: above) := by
  obtain ⟨held, inside, -⟩ := Linked.holds_numbered_cons.mp holds
  refine ⟨_, held, rfl, ?_, tracks.arguments, held, .under held rfl tracks.held tracks.way, ?_, rfl,
    inside, rfl⟩
  · simp [tracks.path, Match.path]
  · rw [tracks.passed]
    rfl

/-- Where no slot is empty, a word leads down to the same keyword. -/
theorem step (tracks : Tracks linked spot found node above) (text : String) :
    match found.below.find? text with
    | none => linked.pick text node.children = some none
    | some (keyword, below) => ∃ number child,
        linked.pick text node.children = some (some number) ∧
          linked.nodes[number]? = some child ∧ child.keyword = keyword ∧
            Tracks linked ⟨number, spot.path ++ [keyword.name], 0, spot.arguments⟩
              ⟨keyword :: found.passed, below, keyword.slots, found.arguments⟩ child
              (node :: above) := by
  have picked := Linked.pick_numbered tracks.below text
  rw [← tracks.children] at picked
  cases led : found.below.find? text with
  | none =>
      rw [led] at picked
      exact picked
  | some entry =>
      rw [led] at picked
      obtain ⟨number, same, holds⟩ := picked
      obtain ⟨child, held, keyword, down⟩ := tracks.down holds
      exact ⟨number, child, same, held, keyword, down⟩

theorem advance (tracks : Tracks linked spot found node above) (word : Word) (line : Nat) :
    match found.advance word line with
    | .error problem => spot.advance linked word line = some (.error problem)
    | .ok next => ∃ last child further, spot.advance linked word line = some (.ok last) ∧
        Tracks linked last next child further := by
  unfold Match.advance Spot.advance
  rw [tracks.held, Option.bind_eq_bind, Option.bind_some, tracks.slots, drop_slots]
  cases slots : node.keyword.slots[spot.filled]? with
  | some slot =>
      dsimp only
      rw [tracks.words]
      cases takeValue slot word found.words line with
      | error problem => rfl
      | ok value =>
          have filled := congrArg (· ++ [Argument.mk slot.name value]) tracks.arguments
          exact ⟨_, node, above, rfl, { tracks with arguments := filled, slots := rfl }⟩
  | none =>
      dsimp only
      rw [tracks.row, tracks.words]
      cases word with
      | plain text =>
          dsimp only
          have step := tracks.step text
          cases led : found.below.find? text with
          | none =>
              rw [led] at step
              rw [step]
              rfl
          | some entry =>
              rw [led] at step
              obtain ⟨number, child, picked, held, same, down⟩ := step
              rw [picked]
              simp only [Option.bind_eq_bind, Option.bind_some, held, same]
              exact ⟨_, child, node :: above, rfl, down⟩
      | qualified text => rfl
      | integer text => rfl
      | literal text => rfl
      | ref text => rfl

theorem advanceAll (tracks : Tracks linked spot found node above) (line : Nat)
    (words : List Word) :
    match found.advanceAll line words with
    | .error problem => spot.advanceAll linked line words = some (.error problem)
    | .ok next => ∃ last child further, spot.advanceAll linked line words = some (.ok last) ∧
        Tracks linked last next child further := by
  induction words generalizing spot found node above with
  | nil => exact ⟨spot, node, above, rfl, tracks⟩
  | cons word rest ih =>
      have one := tracks.advance word line
      unfold Match.advanceAll Spot.advanceAll
      cases taken : found.advance word line with
      | error problem =>
          rw [taken] at one
          rw [one]
          rfl
      | ok next =>
          rw [taken] at one
          obtain ⟨last, child, further, same, tracks⟩ := one
          rw [same]
          exact ih tracks

end Spot.Tracks

/-- The names of keywords on the way up, the root first. -/
def namesDown (nodes : List Grammar.Node) : List String := (nodes.map (·.keyword.name)).reverse

/-- Words behind an object are there to be cut off. -/
theorem Spot.objectOf_primary {number : Nat} {node : Grammar.Node} {above : List Grammar.Node}
    (held : linked.nodes[number]? = some node) (level : node.keyword.level = above.length)
    (primary : node.keyword.traits.primary = true) (after : List String) :
    Spot.objectOf linked (namesDown (node :: above) ++ after) number =
      some (some (node.keyword.name, after)) := by
  have length : (namesDown (node :: above)).length = node.keyword.level + 1 := by
    simp [namesDown, level]
  have longer : node.keyword.level + 1 ≤ (namesDown (node :: above) ++ after).length := by
    rw [List.length_append]
    omega
  rw [objectOf, held, Option.bind_eq_bind, Option.bind_some, if_pos primary, if_pos longer,
    ← length, List.drop_left]

/-- The object is looked for on the way up. -/
theorem Spot.objectOf_eq (wellFormed : linked.WellFormed) {number : Nat} {node : Grammar.Node}
    {above : List Grammar.Node} (held : linked.nodes[number]? = some node)
    (way : linked.Above number above) (after : List String) :
    Spot.objectOf linked (namesDown (node :: above) ++ after) number =
      some (Match.objectOf after ((node :: above).map (·.keyword))) := by
  have here := wellFormed.level_eq held way
  induction way generalizing node after with
  | @root number lower heldToo top =>
      obtain rfl := Option.some.inj (held.symm.trans heldToo)
      by_cases primary : node.keyword.traits.primary = true
      · rw [objectOf_primary held here primary, List.map_cons, Match.objectOf, if_pos primary]
      · rw [objectOf, held, Option.bind_eq_bind, Option.bind_some, if_neg primary, top,
          List.map_cons, Match.objectOf, if_neg primary]
        rfl
  | @under number parent lower upper above heldToo link next further ih =>
      obtain rfl := Option.some.inj (held.symm.trans heldToo)
      by_cases primary : node.keyword.traits.primary = true
      · rw [objectOf_primary held here primary, List.map_cons, Match.objectOf, if_pos primary]
      · have upwards := ih next (node.keyword.name :: after) (wellFormed.level_eq next further)
        have same : namesDown (node :: upper :: above) ++ after =
            namesDown (upper :: above) ++ node.keyword.name :: after := by
          simp [namesDown]
        have earlier := wellFormed.earlier number parent ⟨node, held, link⟩
        -- the name of this keyword is now one of the words behind the object
        rw [objectOf, held, Option.bind_eq_bind, Option.bind_some, if_neg primary, link,
          List.map_cons, Match.objectOf, if_neg primary, same]
        exact (if_pos earlier).trans upwards

namespace Spot.Tracks

variable {spot : Spot} {found : Match} {node : Grammar.Node} {above : List Grammar.Node}

theorem path_eq (tracks : Tracks linked spot found node above) :
    spot.path = namesDown (node :: above) := by
  rw [tracks.path, Match.path, tracks.passed, namesDown, List.map_map]
  rfl

theorem finish (tracks : Tracks linked spot found node above) (wellFormed : linked.WellFormed)
    (ref : Option String) (statement : Statement) :
    spot.finish linked ref statement = some (found.finish ref statement) := by
  unfold Match.finish Spot.finish
  rw [tracks.held, Option.bind_eq_bind, Option.bind_some, tracks.slots, drop_slots]
  cases slots : node.keyword.slots[spot.filled]? with
  | some slot =>
      dsimp only
      rw [tracks.words]
  | none =>
      have object := Spot.objectOf_eq wellFormed tracks.held tracks.way []
      rw [List.append_nil, ← tracks.path_eq, ← tracks.passed] at object
      have root : spot.path[0]? = some (spot.path.headD "") := by
        have filled : spot.path ≠ [] := by simp [tracks.path_eq, namesDown]
        obtain ⟨first, rest, same⟩ := List.exists_cons_of_ne_nil filled
        rw [same]
        rfl
      dsimp only
      rw [tracks.row, tracks.words, Option.bind_eq_bind, Option.bind_some, Grammar.mayEnd]
      by_cases ends : found.below.row.all (·.traits.optional) = true
      · rw [if_pos ends, if_pos ends, object, root, tracks.path, tracks.arguments]
        rfl
      · rw [if_neg ends, if_neg ends]

end Spot.Tracks

/-! ### Whole texts -/

/-- A root is looked up, and a match starts from it. -/
theorem Spot.start_tracks (grammar : Grammar) (word : String) :
    match grammar.find? word with
    | none => grammar.linked.root word = some none
    | some (keyword, below) => ∃ number spot node, grammar.linked.root word = some (some number) ∧
        Spot.start grammar.linked number = some spot ∧
          Spot.Tracks grammar.linked spot (Match.start keyword below) node [] := by
  have picked := Linked.pick_numbered (Grammar.holds_linked grammar) word
  cases led : grammar.find? word with
  | none =>
      rw [led] at picked
      exact picked
  | some entry =>
      obtain ⟨keyword, below⟩ := entry
      rw [led] at picked
      obtain ⟨number, same, holds⟩ := picked
      obtain ⟨held, inside, -⟩ := Linked.holds_numbered_cons.mp holds
      refine ⟨number, ⟨number, [keyword.name], 0, []⟩, _, same, ?_, rfl, rfl, held, .root held rfl,
        rfl, rfl, inside, rfl⟩
      rw [Spot.start, held]
      rfl

/-- A statement fails, or leads to a keyword, as it does without links. -/
theorem Spot.ofStatement_eq (grammar : Grammar) (statement : Statement) :
    (∃ problem, Spot.ofStatement grammar.linked statement = some (.error problem) ∧
      Command.ofStatement grammar statement = .error problem) ∨
    ∃ spot ref found node above,
      Spot.ofStatement grammar.linked statement = some (.ok (spot, ref)) ∧
        Spot.Tracks grammar.linked spot found node above ∧
          Command.ofStatement grammar statement = found.finish ref statement := by
  unfold Spot.ofStatement Command.ofStatement
  cases Word.ofText statement.text statement.line with
  | error problem => exact .inl ⟨problem, rfl, rfl⟩
  | ok words =>
      dsimp only
      generalize detachRef words = detached
      obtain ⟨words, ref⟩ := detached
      dsimp only
      by_cases empty : ref = some ""
      · rw [if_pos empty, if_pos empty]
        exact .inl ⟨_, rfl, rfl⟩
      · rw [if_neg empty, if_neg empty]
        cases words with
        | nil => exact .inl ⟨_, rfl, rfl⟩
        | cons first rest =>
            cases first with
            | plain word =>
                have started := Spot.start_tracks grammar word
                dsimp only
                cases led : grammar.find? word with
                | none =>
                    rw [led] at started
                    rw [started]
                    exact .inl ⟨_, rfl, rfl⟩
                | some entry =>
                    obtain ⟨keyword, below⟩ := entry
                    rw [led] at started
                    obtain ⟨number, spot, node, root, start, tracks⟩ := started
                    rw [root]
                    simp only [Option.bind_eq_bind, Option.bind_some, start]
                    have all := tracks.advanceAll statement.line rest
                    cases taken : (Match.start keyword below).advanceAll statement.line rest with
                    | error problem =>
                        rw [taken] at all
                        rw [all]
                        exact .inl ⟨_, rfl, rfl⟩
                    | ok found =>
                        rw [taken] at all
                        obtain ⟨last, child, further, same, tracks⟩ := all
                        rw [same]
                        exact .inr ⟨last, ref, found, child, further, rfl, tracks, rfl⟩
            | qualified word => exact .inl ⟨_, rfl, rfl⟩
            | integer word => exact .inl ⟨_, rfl, rfl⟩
            | literal word => exact .inl ⟨_, rfl, rfl⟩
            | ref word => exact .inl ⟨_, rfl, rfl⟩

/-- A statement leads to a keyword; its command has the names on the way down to there as its path,
one more than the level of the keyword, and the last on the way that can be an object as object. -/
def Lands (linked : Linked) (statement : Statement) (command : Command) : Prop :=
  ∃ spot ref node above, Spot.ofStatement linked statement = some (.ok (spot, ref)) ∧
    linked.nodes[spot.number]? = some node ∧ linked.Above spot.number above ∧
      command.path = namesDown (node :: above) ∧
        command.path.length = node.keyword.level + 1 ∧
          command.object =
            ((node :: above).find? (·.keyword.traits.primary)).map (·.keyword.name)

theorem objectOf_name (after : List String) (nodes : List Grammar.Node) :
    (Match.objectOf after (nodes.map (·.keyword))).map (·.1) =
      (nodes.find? (·.keyword.traits.primary)).map (·.keyword.name) := by
  induction nodes generalizing after with
  | nil => rfl
  | cons node nodes ih =>
      rw [List.map_cons, Match.objectOf, List.find?_cons]
      by_cases primary : node.keyword.traits.primary = true
      · rw [if_pos primary, primary]
        rfl
      · rw [if_neg primary, ih, Bool.eq_false_iff.mpr primary]

theorem Match.finish_eq_ok {found : Match} {ref : Option String} {statement : Statement}
    {command : Command} (finished : found.finish ref statement = .ok command) :
    command.path = found.path ∧ command.object = (Match.objectOf [] found.passed).map (·.1) := by
  unfold Match.finish at finished
  split at finished
  · cases finished
  · split at finished
    · cases finished
      exact ⟨rfl, rfl⟩
    · cases finished

section Placed

variable (placed : grammar.Placed 0)

include placed

theorem ofStatement_linked (statement : Statement) :
    grammar.linked.ofStatement statement = some (Command.ofStatement grammar statement) := by
  rw [Linked.ofStatement]
  rcases Spot.ofStatement_eq grammar statement with
    ⟨problem, same, failed⟩ | ⟨spot, ref, found, node, above, same, tracks, finished⟩
  · rw [same, failed]
    rfl
  · rw [same, finished]
    exact tracks.finish (Grammar.wellFormed_linked placed) ref statement

theorem ofStatement_lands {statement : Statement} {command : Command}
    (parsed : Command.ofStatement grammar statement = .ok command) :
    Lands grammar.linked statement command := by
  rcases Spot.ofStatement_eq grammar statement with
    ⟨problem, same, failed⟩ | ⟨spot, ref, found, node, above, same, tracks, finished⟩
  · rw [failed] at parsed
    cases parsed
  · rw [finished] at parsed
    obtain ⟨path, object⟩ := Match.finish_eq_ok parsed
    have down : command.path = namesDown (node :: above) := by
      rw [path, ← tracks.path, tracks.path_eq]
    have level := (Grammar.wellFormed_linked placed).level_eq tracks.held tracks.way
    refine ⟨spot, ref, node, above, same, tracks.held, tracks.way, down, ?_, ?_⟩
    · simp [down, namesDown, level]
    · rw [object, tracks.passed, objectOf_name]

theorem ofStatements_linked (statements : List Statement) :
    grammar.linked.ofStatements statements = some (Command.ofStatements grammar statements) := by
  induction statements with
  | nil => rfl
  | cons statement rest ih =>
      rw [Linked.ofStatements, ofStatement_linked placed, Command.ofStatements]
      cases Command.ofStatement grammar statement with
      | error problem => rfl
      | ok command =>
          simp only [Option.bind_eq_bind, Option.bind_some, ih]

theorem parse_linked (input : String) :
    grammar.linked.parse input = some (Command.parse grammar input) := by
  unfold Linked.parse Command.parse
  cases Statement.split input with
  | error problem => rfl
  | ok statements => exact ofStatements_linked placed statements

theorem ofStatements_land {statements : List Statement} {commands : List Command}
    (parsed : Command.ofStatements grammar statements = .ok commands) :
    List.Forall₂ (Lands grammar.linked) statements commands := by
  induction statements generalizing commands with
  | nil =>
      cases parsed
      exact .nil
  | cons statement rest ih =>
      unfold Command.ofStatements at parsed
      split at parsed
      · cases parsed
      · rename_i command one
        obtain ⟨others, later, rfl⟩ := Outcome.map_eq_ok.mp parsed
        exact .cons (ofStatement_lands placed one) (ih later)

end Placed

end Rollout.Command

namespace Rollout.Grammar

/-- A text that is read as a grammar is read into links that form trees. Statements can be matched
against these as they are against the grammar, so that no number is looked up in vain; a command
says of its path and object what stands on the way from the root down to where its statement
leads. -/
theorem wellFormed_of_ofText {text : String} {grammar : Grammar}
    (read : ofText text = .ok grammar) :
    ∃ linked, Linked.ofText text = some (.ok linked) ∧ linked.WellFormed ∧
      ∀ input, linked.parse input = some (Command.parse grammar input) ∧
        ∀ commands, Command.parse grammar input = .ok commands →
          ∃ statements, Statement.split input = .ok statements ∧
            List.Forall₂ (Command.Lands linked) statements commands := by
  have placed := Linked.placed_ofText read
  refine ⟨grammar.linked, by rw [Linked.ofText_eq, read]; rfl, wellFormed_linked placed, ?_⟩
  refine fun input => ⟨Command.parse_linked placed input, fun commands parsed => ?_⟩
  unfold Command.parse at parsed
  split at parsed
  · cases parsed
  · rename_i statements split
    exact ⟨statements, split, Command.ofStatements_land placed parsed⟩

def sample : String :=
  "create | Create objects | root\n  tables | All tables | primary\n" ++
    "    in | Of schemas | optional\n      - schema-names | Their names\n"

def sampleOutline (verb description : String) : List Keyword :=
  [⟨verb, description, 0, { root := true }, []⟩,
    ⟨"tables", "All tables", 1, { primary := true }, []⟩,
    ⟨"in", "Of schemas", 2, { optional := true }, [⟨"schema-names", "Their names", .names⟩]⟩]

def sampleGrammar : Grammar :=
  ofOutline (sampleOutline "create" "Create objects" ++
    sampleOutline "drop" "Drop database objects")

theorem ofText_sample : ofText sample = .ok sampleGrammar := by decide +kernel

/-- The last keyword of the sample is that of a clause, below that of the object. -/
theorem wellFormed_of_ofText_sample : ∃ grammar linked, ofText sample = .ok grammar ∧
    Linked.ofText sample = some (.ok linked) ∧ linked.WellFormed ∧
      ∃ statements commands, Statement.split "drop tables in main" = .ok statements ∧
        Command.parse grammar "drop tables in main" = .ok commands ∧
          commands.map (·.path) = [["drop", "tables", "in"]] ∧
            List.Forall₂ (Command.Lands linked) statements commands := by
  obtain ⟨linked, built, wellFormed, parses⟩ := wellFormed_of_ofText ofText_sample
  have parsed : Command.parse sampleGrammar "drop tables in main" =
        .ok [⟨"drop", ["drop", "tables", "in"], some "tables", some .within,
          [⟨"schema-names", .list ["main"]⟩], none, "drop tables in main", 1⟩] := by
    decide +kernel
  obtain ⟨statements, split, land⟩ := (parses "drop tables in main").2 _ parsed
  exact ⟨_, linked, ofText_sample, built, wellFormed, statements, _, split, parsed, rfl, land⟩

end Rollout.Grammar
