import Rollout.Command.Parser
import Rollout.Grammar.Basic
import Rollout.Proofs.Name
import Rollout.Proofs.Outcome
import Rollout.Proofs.Text

/-!
What a parsed command says: a chain of keywords of the grammar, and for each of their slots, in
order, a value that fits.
-/

namespace Rollout.Grammar

/-- Every chain of keywords from the first row down, last first and before those that have been
passed, with what may follow it. -/
def trails : Grammar → List Keyword → List (List Keyword × Grammar)
  | nil, _ => []
  | cons keyword below beside, passed =>
      (keyword :: passed, below) :: (below.trails (keyword :: passed) ++ beside.trails passed)

variable {grammar below : Grammar} {passed further : List Keyword}

theorem mem_trails_of_find {word : String} {keyword : Keyword}
    (found : grammar.find? word = some (keyword, below)) :
    (keyword :: passed, below) ∈ grammar.trails passed := by
  induction grammar with
  | nil => cases found
  | cons first inside beside _ ih =>
      unfold find? at found
      split at found
      · cases found
        exact List.mem_cons_self
      · exact List.mem_cons_of_mem _ (List.mem_append_right _ (ih found))

/-- A chain that goes on from the end of a chain is a chain. -/
theorem trails_subset (led : (further, below) ∈ grammar.trails passed) :
    below.trails further ⊆ grammar.trails passed := by
  induction grammar generalizing passed with
  | nil => cases led
  | cons first inside beside inner outer =>
      intro trail member
      refine List.mem_cons_of_mem _ (List.mem_append.mpr ?_)
      rcases List.mem_cons.mp led with same | deeper
      · cases same
        exact .inl member
      · rcases List.mem_append.mp deeper with within | next
        · exact .inl (inner within member)
        · exact .inr (outer next member)

end Rollout.Grammar

namespace Rollout

/-- The values that an argument slot takes. -/
def Slot.Kind.Admits : Slot.Kind → Value → Prop
  | names, .list listed => listed ≠ [] ∧ ∀ name ∈ listed, Name.isIdentifier name = true
  | qualifiedNames, .list listed => listed ≠ [] ∧ ∀ name ∈ listed, Name.IsQualified name
  | sqlText, .raw _ | sqlText, .path _ | shellText, .raw _ => True
  | _, _ => False

namespace Command

theorem checkName_eq_ok {kind : Slot.Kind} {line : Nat} {name checked : String}
    (passed : checkName kind line name = .ok checked) :
    checked = name ∧
      if kind = .names then Name.isIdentifier name = true else Name.IsQualified name := by
  unfold checkName at passed
  split at passed
  · cases passed
  · split at passed
    · rename_i plain
      split at passed
      · rename_i identifier
        cases passed
        exact ⟨rfl, by rwa [if_pos plain]⟩
      · cases passed
    · rename_i pair
      split at passed
      · cases passed
      · rename_i schema item split
        split at passed
        · rename_i parts
          cases passed
          refine ⟨rfl, ?_⟩
          rw [if_neg pair]
          simp only [List.all_cons, List.all_nil, Bool.and_true, Bool.and_eq_true,
            Bool.or_eq_true, beq_iff_eq] at parts
          exact ⟨schema, item, split, parts⟩
        · cases passed

theorem checkNames_eq_ok {kind : Slot.Kind} {line : Nat} {names checked : List String}
    (passed : checkNames kind line names = .ok checked) :
    checked = names ∧ ∀ name ∈ names,
      if kind = .names then Name.isIdentifier name = true else Name.IsQualified name := by
  induction names generalizing checked with
  | nil =>
      cases passed
      exact ⟨rfl, fun _ member => nomatch member⟩
  | cons name rest ih =>
      unfold checkNames at passed
      split at passed
      · cases passed
      · rename_i first one
        obtain ⟨rfl, fits⟩ := checkName_eq_ok one
        obtain ⟨others, later, rfl⟩ := Outcome.map_eq_ok.mp passed
        obtain ⟨rfl, all⟩ := ih later
        exact ⟨rfl, List.forall_mem_cons.mpr ⟨fits, all⟩⟩

theorem takeValue_admits {slot : Slot} {word : Word} {after : String} {line : Nat}
    {value : Value} (taken : takeValue slot word after line = .ok value) :
    slot.kind.Admits value := by
  unfold takeValue at taken
  dsimp only at taken
  have listed : ∀ kind, kind = .names ∨ kind = .qualifiedNames →
      (checkNames kind line (Text.splitAt ',' word.text)).map Value.list = .ok value →
      kind.Admits value := by
    intro kind list checked
    obtain ⟨names, passed, rfl⟩ := Outcome.map_eq_ok.mp checked
    obtain ⟨rfl, all⟩ := checkNames_eq_ok passed
    have filled : Text.splitAt ',' word.text ≠ [] := Text.splitAt_ne_nil _
    rcases list with rfl | rfl <;> exact ⟨filled, by simpa using all⟩
  cases kind : slot.kind <;> rw [kind] at taken <;> dsimp only at taken
  case names =>
    split at taken
    · cases taken
    · exact listed _ (.inl rfl) taken
  case qualifiedNames =>
    split at taken
    · cases taken
    · exact listed _ (.inr rfl) taken
  all_goals
    split at taken <;> cases taken <;> trivial

/-- The slots of a chain of keywords that is given last first, in the order of its words. -/
def slotsOf (passed : List Keyword) : List Slot := passed.reverse.flatMap (·.slots)

/-- Arguments that fill slots one by one. -/
structure Fill (slots : List Slot) (arguments : List Argument) : Prop where
  names : arguments.map (·.slot) = slots.map (·.name)
  values : ∀ argument ∈ arguments, ∃ slot ∈ slots,
    argument.slot = slot.name ∧ slot.kind.Admits argument.value

theorem Fill.append {slots : List Slot} {arguments : List Argument} {slot : Slot} {value : Value}
    (fill : Fill slots arguments) (admitted : slot.kind.Admits value) :
    Fill (slots ++ [slot]) (arguments ++ [⟨slot.name, value⟩]) := by
  refine ⟨by simp [fill.names], fun argument member => ?_⟩
  rcases List.mem_append.mp member with earlier | last
  · obtain ⟨held, within, fits⟩ := fill.values argument earlier
    exact ⟨held, List.mem_append_left _ within, fits⟩
  · obtain rfl := List.mem_singleton.mp last
    exact ⟨slot, by simp, rfl, admitted⟩

/-- The keywords matched so far form a chain, and the arguments fill its slots up to those that
are still empty. -/
structure Match.Traced (grammar : Grammar) (spot : Match) : Prop where
  led : (spot.passed, spot.below) ∈ grammar.trails []
  filled : ∃ slots, slotsOf spot.passed = slots ++ spot.slots ∧ Fill slots spot.arguments

variable {grammar : Grammar}

theorem Match.start_traced {keyword : Keyword} {below : Grammar} {word : String}
    (found : grammar.find? word = some (keyword, below)) :
    (Match.start keyword below).Traced grammar :=
  ⟨Grammar.mem_trails_of_find found, [], by simp [slotsOf, Match.start], rfl,
    fun _ member => nomatch member⟩

theorem Match.Traced.advance {spot next : Match} {word : Word} {line : Nat}
    (traced : spot.Traced grammar) (advanced : spot.advance word line = .ok next) :
    next.Traced grammar := by
  obtain ⟨led, slots, split, fill⟩ := traced
  unfold Match.advance at advanced
  split at advanced
  · -- the word is the value of the first slot that is empty
    rename_i slot rest empty
    split at advanced
    · cases advanced
    · rename_i value taken
      cases advanced
      refine ⟨led, slots ++ [slot], ?_, fill.append (takeValue_admits taken)⟩
      simp [split, empty]
  · -- all slots are filled, and the word is the next keyword
    rename_i empty
    dsimp only at advanced
    split at advanced
    · rename_i keyword below found
      cases advanced
      obtain ⟨text, named⟩ : ∃ text, spot.below.find? text = some (keyword, below) := by
        cases word with
        | plain text => exact ⟨text, found⟩
        | _ => cases found
      refine ⟨Grammar.trails_subset led (Grammar.mem_trails_of_find named), slots, ?_, fill⟩
      rw [empty, List.append_nil] at split
      simp [slotsOf, ← split]
    · cases advanced

theorem Match.Traced.advanceAll {spot last : Match} {words : List Word} {line : Nat}
    (traced : spot.Traced grammar) (advanced : advanceAll line spot words = .ok last) :
    last.Traced grammar := by
  induction words generalizing spot with
  | nil =>
      cases advanced
      exact traced
  | cons word rest ih =>
      unfold Match.advanceAll at advanced
      split at advanced
      · cases advanced
      · rename_i next one
        exact ih (traced.advance one) advanced

/-- The command is that of a chain of keywords, given last first. -/
structure Spells (passed : List Keyword) (command : Command) : Prop where
  root : command.root = (passed.map (·.name)).reverse.headD ""
  object : command.object = (Match.objectOf [] passed).map (·.1)
  clause : command.clause =
    (Match.objectOf [] passed).bind fun (_, after) => Clause.ofKeywords? after
  fill : Fill (slotsOf passed) command.arguments

theorem Match.Traced.finish {spot : Match} {ref : Option String} {statement : Statement}
    {command : Command} (traced : spot.Traced grammar)
    (finished : spot.finish ref statement = .ok command) :
    spot.below.mayEnd = true ∧ command.Spells spot.passed := by
  obtain ⟨-, slots, split, fill⟩ := traced
  unfold Match.finish at finished
  split at finished
  · cases finished
  · rename_i empty
    rw [empty, List.append_nil] at split
    split at finished
    · rename_i ends
      cases finished
      exact ⟨ends, rfl, rfl, rfl, by rwa [split]⟩
    · cases finished

/-- A command that is parsed follows the grammar to a place where a statement may end. -/
theorem ofStatement_spells {statement : Statement} {command : Command}
    (parsed : ofStatement grammar statement = .ok command) :
    ∃ trail ∈ grammar.trails [], trail.2.mayEnd = true ∧ command.Spells trail.1 := by
  unfold ofStatement at parsed
  split at parsed
  · cases parsed
  · dsimp only at parsed
    split at parsed
    · cases parsed
    · split at parsed
      · cases parsed
      · rename_i first rest split
        split at parsed
        · cases parsed
        · rename_i keyword below found
          obtain ⟨text, named⟩ : ∃ text, grammar.find? text = some (keyword, below) := by
            cases first with
            | plain text => exact ⟨text, found⟩
            | _ => cases found
          split at parsed
          · cases parsed
          · rename_i spot advanced
            have traced := (Match.start_traced named).advanceAll advanced
            exact ⟨_, traced.led, traced.finish parsed⟩

theorem ofStatements_spells {statements : List Statement} {commands : List Command}
    (parsed : ofStatements grammar statements = .ok commands) {command : Command}
    (member : command ∈ commands) :
    ∃ trail ∈ grammar.trails [], trail.2.mayEnd = true ∧ command.Spells trail.1 := by
  induction statements generalizing commands with
  | nil =>
      cases parsed
      cases member
  | cons statement rest ih =>
      unfold ofStatements at parsed
      split at parsed
      · cases parsed
      · rename_i first one
        obtain ⟨others, later, rfl⟩ := Outcome.map_eq_ok.mp parsed
        rcases List.mem_cons.mp member with rfl | deeper
        · exact ofStatement_spells one
        · exact ih later deeper

theorem parse_spells {text : String} {commands : List Command}
    (parsed : parse grammar text = .ok commands) {command : Command} (member : command ∈ commands) :
    ∃ trail ∈ grammar.trails [], trail.2.mayEnd = true ∧ command.Spells trail.1 := by
  unfold parse at parsed
  split at parsed
  · cases parsed
  · exact ofStatements_spells parsed member

end Command

end Rollout
