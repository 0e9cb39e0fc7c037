import Mathlib.Data.List.Basic
import Rollout.Proofs.Command.Linked
import Rollout.Proofs.Command.Parser
import Rollout.Proofs.Grammar.Twins
import Rollout.Proofs.Word

/-!
Statements under a second name. Whatever follows the two names, both statements are commands that
differ only as their names do, or neither is one and the mistakes are of one kind.
-/

namespace Rollout

inductive ParseError.Kind where
  | unknownCommand
  | unexpectedWord
  | incomplete
  | missingArgument
  | malformedName
  | unterminatedLiteral
  | emptyRef
deriving DecidableEq, Repr

def ParseError.kind : ParseError → Kind
  | .unknownCommand .. => .unknownCommand
  | .unexpectedWord .. => .unexpectedWord
  | .incomplete .. => .incomplete
  | .missingArgument .. => .missingArgument
  | .malformedName .. => .malformedName
  | .unterminatedLiteral .. => .unterminatedLiteral
  | .emptyRef .. => .emptyRef

/-! ### The rest of a statement -/

namespace Statement

/-- Nothing that ends a statement stands outside of literals. -/
def unbroken (inLiteral : Bool) : List Char → Bool
  | [] => true
  | c :: rest =>
      if c = mark then unbroken (!inLiteral) rest
      else (inLiteral || (c != '\n' && c != ';')) && unbroken inLiteral rest

/-- What can follow the first word of a statement: nothing, or white space and more. -/
structure IsRest (rest : List Char) : Prop where
  opens : ∀ c ∈ rest.head?, Text.isBlank c = true
  unbroken : unbroken false rest = true

/-- A last literal that is not closed. -/
def Unclosed (text : List Char) : Prop :=
  ∃ before inner, text = before ++ mark :: inner ∧ Stretch before ∧ mark ∉ inner

theorem unbroken_cases (text : List Char) :
    (unbroken false text = true → Stretch text ∨ Unclosed text) ∧
      (unbroken true text = true → mark ∉ text ∨
        ∃ inner rest, text = inner ++ mark :: rest ∧ mark ∉ inner ∧
          (Stretch rest ∨ Unclosed rest)) := by
  induction text with
  | nil => exact ⟨fun _ => .inl .nil, fun _ => .inl List.not_mem_nil⟩
  | cons c rest ih =>
      obtain ⟨outside, inside⟩ := ih
      rw [unbroken, unbroken]
      by_cases quote : c = mark
      · subst quote
        rw [if_pos rfl, if_pos rfl]
        constructor
        · intro free
          rcases inside free with opened | ⟨inner, later, rfl, closed, stretch | unclosed⟩
          · exact .inr ⟨[], rest, rfl, .nil, opened⟩
          · exact .inl (.literal closed stretch)
          · obtain ⟨before, last, rfl, stretch, opened⟩ := unclosed
            refine .inr ⟨mark :: inner ++ mark :: before, last, by simp, ?_, opened⟩
            exact .literal closed stretch
        · intro free
          exact .inr ⟨[], rest, rfl, List.not_mem_nil, outside free⟩
      · rw [if_neg quote, if_neg quote]
        constructor
        · intro free
          simp only [Bool.false_or, Bool.and_eq_true, bne_iff_ne] at free
          obtain ⟨⟨feed, semicolon⟩, later⟩ := free
          have plain : c ≠ '\n' ∧ c ≠ ';' ∧ c ≠ mark := ⟨feed, semicolon, quote⟩
          rcases outside later with stretch | ⟨before, inner, rfl, stretch, opened⟩
          · exact .inl (.plain plain stretch)
          · exact .inr ⟨c :: before, inner, rfl, .plain plain stretch, opened⟩
        · intro free
          rw [Bool.true_or, Bool.true_and] at free
          rcases inside free with opened | ⟨inner, later, rfl, closed, more⟩
          · exact .inl (by simp [opened, Ne.symm quote])
          · exact .inr ⟨c :: inner, later, rfl, by simp [closed, Ne.symm quote], more⟩

theorem literal_unclosed {inner : List Char} (opened : mark ∉ inner)
    (begun line start : Nat) (collected : List Char) :
    literal begun line start collected inner = .error (.unterminatedLiteral begun) := by
  induction inner generalizing line collected with
  | nil => rfl
  | cons c inner ih =>
      have quote : c ≠ mark := fun same => opened (same ▸ List.mem_cons_self)
      have later : mark ∉ inner := fun member => opened (List.mem_cons_of_mem _ member)
      rw [literal, if_neg quote, ih later, ih later, ite_self]

/-- A word that a statement can start with. -/
structure Begins (word : String) : Prop where
  bare : Lexeme.IsBare word
  hyphen : word.toList.head? ≠ some '-'

variable {word : String} {rest : List Char}

theorem Begins.whole (begins : Begins word) : Whole word.toList := by
  obtain ⟨⟨filled, free⟩, hyphen⟩ := begins
  constructor
  · rcases letters : word.toList with _ | ⟨c, more⟩
    · exact absurd (String.toList_eq_nil_iff.mp letters) filled
    · rw [letters] at free hyphen
      obtain ⟨⟨visible, semicolon, quote⟩, others⟩ := List.forall_mem_cons.mp free
      refine ⟨c, more, rfl, visible, by simpa using hyphen, semicolon, quote, ?_⟩
      apply Lexeme.stretch_of_inside
      intro d member
      obtain ⟨visible, semicolon, quote⟩ := others d member
      refine ⟨?_, semicolon, quote⟩
      rintro rfl
      exact absurd visible (by decide)
  · exact fun c last => (free c (List.mem_of_getLast? last)).1

theorem Begins.starts (begins : Begins word) :
    ∃ c more, word.toList = c :: more ∧ Text.isBlank c = false := by
  obtain ⟨c, more, letters, visible, -⟩ := begins.whole.starts
  exact ⟨c, more, letters, visible⟩

/-- Only white space at the end is trimmed. -/
theorem trim_append_rest (begins : Begins word) (rest : List Char) :
    Text.trim (word.toList ++ rest) = word.toList ++ Text.trimEnd rest := by
  obtain ⟨c, more, letters, visible⟩ := begins.starts
  have first : Text.trimStart (word.toList ++ rest) = word.toList ++ rest := by
    simp [Text.trimStart, letters, visible]
  have last : word.toList.reverse.dropWhile Text.isBlank = word.toList.reverse := by
    have ends := begins.whole.ends
    rw [← List.head?_reverse] at ends
    cases turned : word.toList.reverse with
    | nil => rfl
    | cons d others =>
        rw [turned] at ends
        simp [ends d rfl]
  rw [Text.trim, first, Text.trimEnd, Text.trimEnd, List.reverse_append, List.dropWhile_append,
    last]
  by_cases blank : (rest.reverse.dropWhile Text.isBlank).isEmpty = true
  · rw [if_pos blank, List.isEmpty_iff.mp blank]
    simp
  · rw [if_neg blank]
    simp

/-- A word and its rest are one statement, unless a literal stays open in the rest. -/
theorem split_rest {rest : String} (isRest : IsRest rest.toList) :
    (∀ word, Begins word → split (word ++ rest) =
      .ok [⟨String.ofList (word.toList ++ Text.trimEnd rest.toList), 1⟩]) ∨
    ∀ word, Begins word → ∃ line,
      split (word ++ rest) = .error (.unterminatedLiteral line) := by
  have begun {word : String} (begins : Begins word) :
      Text.allBlank word.toList.reverse = false := by
    obtain ⟨c, more, letters, visible⟩ := begins.starts
    simp [Text.allBlank, letters, visible]
  have read {word : String} (begins : Begins word) {text : List Char} (stretch : Stretch text)
      (more : List Char) : outside 1 1 [] (word.toList ++ (text ++ more)) =
        outside (1 + word.toList.count '\n' + text.count '\n') 1
          (text.reverse ++ word.toList.reverse) more := by
    rw [outside_whole begins.whole, outside_stretch (begun begins) stretch]
  -- the rest ends outside of its literals or in one, whichever word it follows
  rcases (unbroken_cases rest.toList).1 isRest.unbroken with
    stretch | ⟨before, inner, same, stretch, opened⟩
  · left
    intro word begins
    have all := read begins stretch []
    rw [List.append_nil] at all
    obtain ⟨c, more, first, -⟩ := begins.starts
    rw [split, String.toList_append, all, outside, close, ← List.reverse_append,
      List.reverse_reverse, trim_append_rest begins, first]
    rfl
  · right
    intro word begins
    rw [split, String.toList_append, same, read begins stretch, outside, if_neg (by simp [mark]),
      if_neg (by decide), if_neg (by decide), if_pos rfl, literal_unclosed opened]
    exact ⟨_, rfl⟩

end Statement

theorem Text.trimEnd_prefix (text : List Char) : Text.trimEnd text <+: text := by
  have suffix := List.dropWhile_suffix Text.isBlank (l := text.reverse)
  rw [← List.reverse_prefix, List.reverse_reverse] at suffix
  exact suffix

/-- The first word is the name, the others are those of the rest. -/
theorem Word.between_rest {word : String} {rest : List Char} (begins : Statement.Begins word)
    (plain : Word.classify word.toList = .plain word)
    (opens : ∀ c ∈ rest.head?, Text.isBlank c = true) :
    Word.between (word.toList ++ Text.trimEnd rest) =
      (Word.between (Text.trimEnd rest)).map (.plain word :: ·) := by
  have still : ∀ c ∈ (Text.trimEnd rest).head?, Text.isBlank c = true := by
    intro c first
    obtain ⟨more, same⟩ := Text.trimEnd_prefix rest
    apply opens c
    rw [← same, List.head?_append, Option.mem_def.mp first]
    rfl
  have item : Lexeme.Sound (.bare word) := begins.bare
  have told := Word.between_item item still
  rw [Lexeme.written, Lexeme.word, plain] at told
  exact told

namespace Command

/-- Results that match, or mistakes of one kind. -/
def Alike {Value Other : Type} (same : Value → Other → Prop) :
    Except ParseError Value → Except ParseError Other → Prop
  | .ok one, .ok other => same one other
  | .error one, .error other => one.kind = other.kind
  | _, _ => False

theorem Alike.refl {Value : Type} (result : Except ParseError Value) :
    Alike (· = ·) result result := by
  cases result <;> rfl

/-- What has been matched so far does not matter to a value. -/
theorem takeValue_alike (slot : Slot) (word : Word) (after others : String) (line : Nat) :
    Alike (· = ·) (takeValue slot word after line) (takeValue slot word others line) := by
  unfold takeValue
  dsimp only
  split
  · split
    · rfl
    · exact .refl _
  · split
    · rfl
    · exact .refl _
  · split <;> rfl
  · split <;> rfl

/-- Matches that differ in the root alone. -/
structure Match.Mirrors (root twin : Keyword) (first second : Match) : Prop where
  passed : ∃ further, first.passed = further ++ [root] ∧ second.passed = further ++ [twin]
  below : second.below = first.below
  slots : second.slots = first.slots
  arguments : second.arguments = first.arguments

namespace Match.Mirrors

variable {root twin : Keyword} {first second : Match}

theorem advance (mirrors : Mirrors root twin first second) (word : Word) (line : Nat) :
    Alike (Mirrors root twin) (first.advance word line) (second.advance word line) := by
  obtain ⟨⟨further, passed, passedToo⟩, below, slots, arguments⟩ := mirrors
  unfold Match.advance
  rw [slots, below, arguments]
  cases empty : first.slots with
  | cons slot rest =>
      dsimp only
      have same := takeValue_alike slot word first.words second.words line
      cases taken : takeValue slot word first.words line <;>
        cases takenToo : takeValue slot word second.words line <;>
          rw [taken, takenToo] at same
      · exact same
      · cases same
      · cases same
      · cases same
        exact ⟨⟨further, passed, passedToo⟩, rfl, rfl, rfl⟩
  | nil =>
      dsimp only
      split
      · exact ⟨⟨_ :: further, by rw [passed]; rfl, by rw [passedToo]; rfl⟩, rfl, rfl, rfl⟩
      · rfl

theorem advanceAll (mirrors : Mirrors root twin first second) (line : Nat) (words : List Word) :
    Alike (Mirrors root twin) (first.advanceAll line words) (second.advanceAll line words) := by
  induction words generalizing first second with
  | nil => exact mirrors
  | cons word rest ih =>
      have one := mirrors.advance word line
      unfold Match.advanceAll
      cases taken : first.advance word line <;> cases takenToo : second.advance word line <;>
        rw [taken, takenToo] at one
      · exact one
      · cases one
      · cases one
      · exact ih one

end Match.Mirrors

section Objects

variable {further : List Keyword}

/-- Where no keyword below can be the object, the root may be. -/
theorem objectOf_root (unfit : ∀ keyword ∈ further, keyword.traits.primary = false)
    (after : List String) (root : Keyword) :
    Match.objectOf after (further ++ [root]) =
      if root.traits.primary then some (root.name, (further.map (·.name)).reverse ++ after)
      else none := by
  induction further generalizing after with
  | nil => rfl
  | cons keyword rest ih =>
      obtain ⟨here, others⟩ := List.forall_mem_cons.mp unfit
      rw [List.cons_append, Match.objectOf, if_neg (by simp [here]), ih others]
      simp

theorem objectOf_below (fit : ∃ keyword ∈ further, keyword.traits.primary = true)
    (after : List String) (above : List Keyword) :
    Match.objectOf after (further ++ above) = Match.objectOf after further := by
  induction further generalizing after with
  | nil => obtain ⟨_, ⟨⟩, _⟩ := fit
  | cons keyword rest ih =>
      rw [List.cons_append, Match.objectOf, Match.objectOf]
      by_cases here : keyword.traits.primary = true
      · rw [if_pos here, if_pos here]
      · have others : ∃ other ∈ rest, other.traits.primary = true := by
          obtain ⟨other, member, primary⟩ := fit
          rcases List.mem_cons.mp member with rfl | later
          · exact absurd primary here
          · exact ⟨other, later, primary⟩
        rw [if_neg here, if_neg here, ih others]

variable {root twin : Keyword}

/-- The object is the same below another root, unless it is the root. -/
theorem objectOf_twin (further : List Keyword) (traits : twin.traits = root.traits) :
    if root.traits.primary = true ∧ ∀ keyword ∈ further, keyword.traits.primary = false then
      ∃ after, Match.objectOf [] (further ++ [root]) = some (root.name, after) ∧
        Match.objectOf [] (further ++ [twin]) = some (twin.name, after)
    else Match.objectOf [] (further ++ [twin]) = Match.objectOf [] (further ++ [root]) := by
  by_cases found : ∃ keyword ∈ further, keyword.traits.primary = true
  · have other : ¬ (root.traits.primary = true ∧
        ∀ keyword ∈ further, keyword.traits.primary = false) := by
      rintro ⟨-, unfit⟩
      obtain ⟨keyword, member, primary⟩ := found
      rw [unfit keyword member] at primary
      cases primary
    rw [if_neg other, objectOf_below found, objectOf_below found]
  · have unfit : ∀ keyword ∈ further, keyword.traits.primary = false := fun keyword member =>
      Bool.eq_false_iff.mpr fun primary => found ⟨keyword, member, primary⟩
    rw [objectOf_root unfit, objectOf_root unfit, traits]
    by_cases primary : root.traits.primary = true
    · rw [if_pos ⟨primary, unfit⟩, if_pos primary, if_pos primary]
      exact ⟨_, rfl, rfl⟩
    · rw [if_neg (fun both => primary both.1), if_neg primary, if_neg primary]

end Objects

/-- The second command says under a name of its own what the first says under that of the root. The
keywords below the root, the last first, are a chain of the grammar; unless one of them can be the
object, the root is the object of both if it can be. -/
structure Mirrored (grammar : Grammar) (root : Keyword) (name : String) (first second : Command) :
    Prop where
  names : first.root = root.name ∧ second.root = name
  path : ∃ further below, (further ++ [root], below) ∈ grammar.trails [] ∧
    first.path = root.name :: (further.map (·.name)).reverse ∧
      second.path = name :: (further.map (·.name)).reverse ∧
        if root.traits.primary = true ∧ ∀ keyword ∈ further, keyword.traits.primary = false then
          first.object = some root.name ∧ second.object = some name
        else second.object = first.object
  clause : second.clause = first.clause
  arguments : second.arguments = first.arguments
  ref : second.ref = first.ref
  line : second.line = first.line

variable {grammar below : Grammar} {root twin : Keyword}

theorem Match.Mirrors.finish {first second : Match} (mirrors : Match.Mirrors root twin first second)
    (traits : twin.traits = root.traits) (led : (first.passed, first.below) ∈ grammar.trails [])
    (ref : Option String) {one other : Statement} (line : other.line = one.line) :
    Alike (Mirrored grammar root twin.name) (first.finish ref one) (second.finish ref other) := by
  obtain ⟨⟨further, passed, passedToo⟩, below, slots, arguments⟩ := mirrors
  have path : first.path = root.name :: (further.map (·.name)).reverse := by
    simp [Match.path, passed]
  have pathToo : second.path = twin.name :: (further.map (·.name)).reverse := by
    simp [Match.path, passedToo]
  unfold Match.finish
  rw [slots, below, arguments, line]
  cases first.slots with
  | cons slot rest => rfl
  | nil =>
      dsimp only
      by_cases ends : first.below.mayEnd = true
      · rw [if_pos ends, if_pos ends, path, pathToo, passed, passedToo]
        rw [passed] at led
        have objects := objectOf_twin further traits
        by_cases deepest : root.traits.primary = true ∧
            ∀ keyword ∈ further, keyword.traits.primary = false
        · rw [if_pos deepest] at objects
          obtain ⟨after, here, there⟩ := objects
          rw [here, there]
          refine ⟨⟨rfl, rfl⟩, ⟨further, _, led, rfl, rfl, ?_⟩, rfl, rfl, rfl, rfl⟩
          rw [if_pos deepest]
          exact ⟨rfl, rfl⟩
        · rw [if_neg deepest] at objects
          rw [objects]
          refine ⟨⟨rfl, rfl⟩, ⟨further, _, led, rfl, rfl, ?_⟩, rfl, rfl, rfl, rfl⟩
          rw [if_neg deepest]
      · rw [if_neg ends, if_neg ends]
        rfl

theorem detachRef_plain (word : String) (words : List Word) :
    detachRef (.plain word :: words) =
      (.plain word :: (detachRef words).1, (detachRef words).2) := by
  cases words with
  | nil => rfl
  | cons first rest =>
      unfold detachRef
      rw [List.getLast?_cons_cons]
      split <;> rfl

/-- What a statement and another that starts with a second name say. -/
theorem ofStatement_alike {word name : String} {tail : Option (List Word)} (one other : Statement)
    (found : grammar.find? word = some (root, below))
    (foundToo : grammar.find? name = some (twin, below)) (traits : twin.traits = root.traits)
    (slots : twin.slots = root.slots) (line : other.line = one.line)
    (told : Word.between one.text.toList = tail.map (.plain word :: ·))
    (toldToo : Word.between other.text.toList = tail.map (.plain name :: ·)) :
    Alike (Mirrored grammar root twin.name) (ofStatement grammar one)
      (ofStatement grammar other) := by
  unfold ofStatement Word.ofText
  rw [told, toldToo, line]
  cases tail with
  | none => rfl
  | some words =>
      dsimp only [Option.map_some]
      rw [detachRef_plain, detachRef_plain]
      dsimp only
      rw [found, foundToo]
      by_cases empty : (detachRef words).2 = some ""
      · rw [if_pos empty, if_pos empty]
        rfl
      · rw [if_neg empty, if_neg empty]
        dsimp only
        have start : Match.Mirrors root twin (Match.start root below) (Match.start twin below) :=
          ⟨⟨[], rfl, rfl⟩, rfl, slots, rfl⟩
        have all := start.advanceAll one.line (detachRef words).1
        cases taken : (Match.start root below).advanceAll one.line (detachRef words).1 <;>
          cases takenToo : (Match.start twin below).advanceAll one.line (detachRef words).1 <;>
            rw [taken, takenToo] at all
        · exact all
        · cases all
        · cases all
        · -- what was passed on the way is a chain of the grammar
          have traced := (Match.start_traced found).advanceAll taken
          exact Match.Mirrors.finish all traits traced.led _ line

/-- Texts that start with a name and with a second name for it, and go on alike. -/
theorem parse_alike {word name rest : String}
    (found : grammar.find? word = some (root, below))
    (foundToo : grammar.find? name = some (twin, below)) (traits : twin.traits = root.traits)
    (slots : twin.slots = root.slots) (begins : Statement.Begins word)
    (beginsToo : Statement.Begins name) (plain : Word.classify word.toList = .plain word)
    (plainToo : Word.classify name.toList = .plain name) (isRest : Statement.IsRest rest.toList) :
    Alike
      (fun firsts seconds => ∃ first second, firsts = [first] ∧ seconds = [second] ∧
        Mirrored grammar root twin.name first second)
      (parse grammar (word ++ rest)) (parse grammar (name ++ rest)) := by
  unfold parse
  rcases Statement.split_rest isRest with whole | broken
  · rw [whole word begins, whole name beginsToo]
    dsimp only
    have alike := ofStatement_alike ⟨String.ofList (word.toList ++ Text.trimEnd rest.toList), 1⟩
      ⟨String.ofList (name.toList ++ Text.trimEnd rest.toList), 1⟩ found foundToo traits slots rfl
      (by rw [String.toList_ofList]; exact Word.between_rest begins plain isRest.opens)
      (by rw [String.toList_ofList]; exact Word.between_rest beginsToo plainToo isRest.opens)
    unfold ofStatements
    cases one : ofStatement grammar ⟨String.ofList (word.toList ++ Text.trimEnd rest.toList), 1⟩ <;>
      cases other :
          ofStatement grammar ⟨String.ofList (name.toList ++ Text.trimEnd rest.toList), 1⟩ <;>
        rw [one, other] at alike
    · exact alike
    · cases alike
    · cases alike
    · exact ⟨_, _, rfl, rfl, alike⟩
  · obtain ⟨line, failed⟩ := broken word begins
    obtain ⟨lineToo, failedToo⟩ := broken name beginsToo
    rw [failed, failedToo]
    rfl

end Command

namespace Grammar

/-- The names that mirror each other are words that statements can start with. -/
theorem begins_secondNames {name description template : String}
    (listed : (name, description, template) ∈ secondNames) :
    (Statement.Begins name ∧ Word.classify name.toList = .plain name) ∧
      Statement.Begins template ∧ Word.classify template.toList = .plain template := by
  rcases List.mem_cons.mp listed with same | listed
  · cases same
    exact ⟨⟨⟨⟨by decide, by simp [Text.isBlank, Statement.mark]⟩, by decide⟩, by decide⟩,
      ⟨⟨by decide, by simp [Text.isBlank, Statement.mark]⟩, by decide⟩, by decide⟩
  · cases List.mem_singleton.mp listed
    exact ⟨⟨⟨⟨by decide, by simp [Text.isBlank, Statement.mark]⟩, by decide⟩, by decide⟩,
      ⟨⟨by decide, by simp [Text.isBlank, Statement.mark]⟩, by decide⟩, by decide⟩

/-- For each second name that a grammar gets, the keywords below it mirror those below the first,
which stay as they were declared; and statements that start with the two names and go on alike are
commands that say the same but for the name, or mistakes of one kind. -/
theorem secondName_mirrors {text : String} {grammar : Grammar} (read : ofText text = .ok grammar) :
    ∃ declared linked, Linked.declared text = some (.ok declared) ∧
      Linked.ofText text = some (.ok linked) ∧
        ∀ name description template, (name, description, template) ∈ secondNames →
          ∀ source, declared.root template = some (some source) → declared.root name = some none →
            declared.nodes <+: linked.nodes ∧
            (∀ number, linked.Reaches source number ↔ declared.Reaches source number) ∧
            linked.root template = some (some source) ∧
            (∃ twin copy, linked.root name = some (some twin) ∧
              linked.Mirrors source twin name description copy) ∧
            ∃ root, declared.nodes[source]? = some root ∧
              ∀ rest : String, Statement.IsRest rest.toList →
                Command.Alike
                  (fun firsts seconds => ∃ first second, firsts = [first] ∧ seconds = [second] ∧
                    Command.Mirrored grammar root.keyword name first second)
                  (Command.parse grammar (template ++ rest))
                  (Command.parse grammar (name ++ rest)) := by
  have declared := Linked.declared_eq text
  rw [read] at declared
  obtain ⟨base, placed, rfl, same⟩ := declared
  refine ⟨base.linked, base.addTwins.linked, same, by rw [Linked.ofText_eq, read]; rfl, ?_⟩
  intro name description template listed source root free
  obtain ⟨still, kept, reached, twin, copy, there, mirrors⟩ :=
    addTwins_mirrors placed listed root free
  obtain ⟨keyword, below, found, holds⟩ := root_eq_some root
  obtain ⟨between, last, absent, added⟩ := addTwins_of_find listed found (root_eq_none.mp free)
  obtain ⟨⟨begins, plain⟩, beginsToo, plainToo⟩ := begins_secondNames listed
  have held := (Linked.holds_numbered_cons.mp holds).1
  refine ⟨kept, reached, still, ⟨twin, copy, there, mirrors⟩, _, held, fun rest isRest => ?_⟩
  have first : base.addTwins.find? template = some (keyword, below) := by
    rw [added, find_append, find_append, found]
    rfl
  have second : base.addTwins.find? name =
      some ({ keyword with name := name, description := description }, below) := by
    rw [added, find_append, absent, append, find?, if_pos (by simp [sameWord])]
    rfl
  exact Command.parse_alike first second rfl rfl beginsToo begins plainToo plain isRest

/-- In the sample all that can be created can be dropped. -/
theorem secondName_mirrors_sample : ∃ declared linked root, ofText sample = .ok sampleGrammar ∧
    Linked.declared sample = some (.ok declared) ∧ Linked.ofText sample = some (.ok linked) ∧
      declared.root "create" = some (some 0) ∧ declared.root "drop" = some none ∧
        declared.nodes <+: linked.nodes ∧
          (∃ twin copy, linked.root "drop" = some (some twin) ∧
            linked.Mirrors 0 twin "drop" "Drop database objects" copy) ∧
              Statement.IsRest " tables in main".toList ∧
                ∃ first second,
                  Command.parse sampleGrammar ("create" ++ " tables in main") =
                      .ok [first] ∧
                    Command.parse sampleGrammar ("drop" ++ " tables in main") =
                      .ok [second] ∧
                      Command.Mirrored sampleGrammar root "drop" first second := by
  obtain ⟨declared, linked, same, built, mirrored⟩ := secondName_mirrors ofText_sample
  have links : Linked.declared sample =
      some (.ok (ofOutline (sampleOutline "create" "Create objects")).linked) := by decide +kernel
  obtain rfl : declared = (ofOutline (sampleOutline "create" "Create objects")).linked := by
    rw [same] at links
    cases links
    rfl
  have root : (ofOutline (sampleOutline "create" "Create objects")).linked.root "create" =
      some (some 0) := by decide +kernel
  have free : (ofOutline (sampleOutline "create" "Create objects")).linked.root "drop" =
      some none := by decide +kernel
  have first : " tables in main".toList.head? = some ' ' := by decide +kernel
  have isRest : Statement.IsRest " tables in main".toList := by
    refine ⟨fun c head => ?_, by decide +kernel⟩
    obtain rfl : ' ' = c := Option.some.inj (first.symm.trans head)
    decide
  obtain ⟨kept, -, -, twin, node, held, parses⟩ :=
    mirrored "drop" "Drop database objects" "create" List.mem_cons_self 0 root free
  have alike := parses " tables in main" isRest
  have parsed : Command.parse sampleGrammar
      ("create" ++ " tables in main") =
        .ok [⟨"create", ["create", "tables", "in"], some "tables", some .within,
          [⟨"schema-names", .list ["main"]⟩], none, "create tables in main", 1⟩] := by
    decide +kernel
  have parsedToo : Command.parse sampleGrammar ("drop" ++ " tables in main") =
      .ok [⟨"drop", ["drop", "tables", "in"], some "tables", some .within,
        [⟨"schema-names", .list ["main"]⟩], none, "drop tables in main", 1⟩] := by
    decide +kernel
  rw [parsed, parsedToo] at alike
  obtain ⟨_, _, ⟨⟩, ⟨⟩, together⟩ := alike
  exact ⟨_, linked, _, ofText_sample, same, built, root, free, kept, twin, isRest, _, _, parsed,
    parsedToo, together⟩

end Grammar

end Rollout
