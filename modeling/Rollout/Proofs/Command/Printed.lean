import Mathlib
import Rollout.Proofs.Command.Parser
import Rollout.Proofs.Keyword
import Rollout.Proofs.Word

/-!
Commands in writing: a way through a grammar to a place where a statement may end, with a value in
every slot that is passed. Keywords may be written in any case, and white space stands between the
items of a statement.
-/

namespace Rollout

open Lexeme (IsBare)

/-- A value is written as one item. -/
def Value.item : Value → Lexeme
  | list names => .bare (",".intercalate names)
  | raw text => .literal text
  | path text => .bare text

/-- The value can be written. A path is to be told from a number and from a ref. -/
def Value.Printable : Value → Prop
  | list _ => True
  | raw text => Statement.mark ∉ text.toList
  | path text =>
      IsBare text ∧ text.toList.all Char.isDigit = false ∧ text.toList.head? ≠ some '#'

/-- The value can be written, and the slot takes it. -/
def Slot.Takes (slot : Slot) (value : Value) : Prop := slot.kind.Admits value ∧ value.Printable

/-- A keyword as it is written, with the values of its slots. -/
structure Visit where
  keyword : Keyword
  written : String
  values : List Value

namespace Visit

structure Sound (visit : Visit) : Prop where
  spelled : sameWord visit.keyword.name visit.written = true
  filled : List.Forall₂ Slot.Takes visit.keyword.slots visit.values

def items (visit : Visit) : List Lexeme := .bare visit.written :: visit.values.map Value.item

def arguments (visit : Visit) : List Argument :=
  visit.keyword.slots.zipWith (fun slot value => ⟨slot.name, value⟩) visit.values

end Visit

/-- A way through a grammar, from a keyword of its first row to one where a statement may end. -/
inductive Grammar.Walk : Grammar → List Visit → Prop where
  | last {grammar below : Grammar} {visit : Visit}
      (entry : (visit.keyword, below) ∈ grammar.entries) (sound : visit.Sound)
      (ends : below.mayEnd = true) : Walk grammar [visit]
  | next {grammar below : Grammar} {visit : Visit} {rest : List Visit}
      (entry : (visit.keyword, below) ∈ grammar.entries) (sound : visit.Sound)
      (walk : Walk below rest) : Walk grammar (visit :: rest)

/-- A command in writing. -/
structure Wording where
  visits : List Visit
  ref : Option String

namespace Wording

def items (wording : Wording) : List Lexeme :=
  wording.visits.flatMap Visit.items ++
    (wording.ref.map fun ref => Lexeme.bare ("#" ++ ref)).toList

def keywords (wording : Wording) : List Keyword := wording.visits.map (·.keyword)

/-- The last of the keywords that names a kind of object. -/
def object? (wording : Wording) : Option Keyword :=
  wording.keywords.reverse.find? (·.traits.primary)

/-- The keywords after the one that names the object. -/
def belowObject (wording : Wording) : List Keyword :=
  (wording.keywords.reverse.takeWhile fun keyword => !keyword.traits.primary).reverse

/-- The command that is written. -/
def command (wording : Wording) (statement : Statement) : Command where
  root := (wording.keywords.map (·.name)).headD ""
  path := wording.keywords.map (·.name)
  object := wording.object?.map (·.name)
  clause := wording.object?.bind fun _ =>
    Clause.ofKeywords? (wording.belowObject.map (·.name))
  arguments := wording.visits.flatMap Visit.arguments
  ref := wording.ref
  text := statement.text
  line := statement.line

end Wording

/-- The command follows the grammar, and the statement is what it looks like in writing. -/
inductive Command.Printed (grammar : Grammar) : Command → Statement → Prop where
  | wording {wording : Wording} {statement : Statement} (walk : grammar.Walk wording.visits)
      (named : ∀ ref ∈ wording.ref, IsBare ref)
      (spaced : Lexeme.Spaced wording.items statement.text.toList) :
      Printed grammar (wording.command statement) statement

theorem Name.isBlank_of_isIdentifierRest {c : Char} (letter : Name.isIdentifierRest c = true) :
    Text.isBlank c = false := by
  rw [Bool.eq_false_iff]
  intro blank
  simp only [Text.isBlank, Bool.or_eq_true, Bool.and_eq_true, decide_eq_true_eq,
    beq_iff_eq] at blank
  simp only [Name.isIdentifierRest, Name.isIdentifierStart, Char.isAlphanum, Char.isAlpha, Char.isUpper,
    Char.isLower, Char.isDigit, Bool.or_eq_true, Bool.and_eq_true, decide_eq_true_eq, beq_iff_eq,
    ge_iff_le, UInt32.le_iff_toNat_le, Char.toNat_val] at letter
  rcases letter with ((((upper | lower) | digit) | rfl) | rfl) | rfl
  · simp at upper
    omega
  · simp at lower
    omega
  · simp at digit
    omega
  all_goals exact absurd blank (by decide)

/-- It is written with the letters of names, with wildcards, dots and commas. -/
def IsListing (text : String) : Prop :=
  text ≠ "" ∧ ∀ c ∈ text.toList,
    Name.isIdentifierRest c = true ∨ c = '?' ∨ c = '.' ∨ c = ','

namespace IsListing

variable {text : String} (listing : IsListing text)

include listing

theorem isBare : IsBare text := by
  refine ⟨listing.1, fun c member => ?_⟩
  rcases listing.2 c member with letter | rfl | rfl | rfl
  · refine ⟨Name.isBlank_of_isIdentifierRest letter, ?_, ?_⟩ <;>
      rintro rfl <;> exact absurd letter (by decide)
  all_goals decide

theorem not_ref : text.toList.head? ≠ some '#' := by
  intro first
  rcases listing.2 '#' (List.mem_of_head? first) with letter | other | other | other
  · exact absurd letter (by decide)
  all_goals exact absurd other (by decide)

end IsListing

theorem isListing_names {names : List String} (filled : names ≠ [])
    (each : ∀ name ∈ names, name ≠ "" ∧
      ∀ c ∈ name.toList, Name.isIdentifierRest c = true ∨ c = '?' ∨ c = '.') :
    IsListing (",".intercalate names) := by
  constructor
  · rcases names with _ | ⟨name, _ | ⟨second, rest⟩⟩
    · exact absurd rfl filled
    · rw [String.intercalate_singleton]
      exact (each name List.mem_cons_self).1
    · rw [String.intercalate_cons_cons]
      simp
  · intro c member
    rcases Text.mem_intercalate member with comma | ⟨name, within, letter⟩
    · exact .inr (.inr (.inr (by simpa using comma)))
    · rcases (each name within).2 c letter with rest | question | dot
      · exact .inl rest
      · exact .inr (.inl question)
      · exact .inr (.inr (.inl dot))

/-- The names of a list, whichever slot takes it. -/
theorem Slot.Kind.Admits.names {kind : Slot.Kind} {names : List String}
    (admitted : kind.Admits (.list names)) : names ≠ [] ∧ ∀ name ∈ names, name ≠ "" ∧
      ∀ c ∈ name.toList, Name.isIdentifierRest c = true ∨ c = '?' ∨ c = '.' := by
  cases kind with
  | names =>
      refine ⟨admitted.1, fun name within => ?_⟩
      have letters := Name.isIdentifier_letters (admitted.2 name within)
      exact ⟨letters.1, fun c member => .inl (letters.2 c member)⟩
  | qualifiedNames =>
      refine ⟨admitted.1, fun name within => ⟨?_, fun c => (admitted.2 name within).letters⟩⟩
      rintro rfl
      obtain ⟨schema, item, split, -⟩ := admitted.2 _ within
      have nothing : Name.qualified? "" = none := by decide
      rw [nothing] at split
      cases split
  | sqlText => cases admitted
  | shellText => cases admitted

theorem Slot.Kind.Admits.isListing {kind : Slot.Kind} {names : List String}
    (admitted : kind.Admits (.list names)) : IsListing (",".intercalate names) :=
  isListing_names admitted.names.1 admitted.names.2

theorem Slot.Takes.sound {slot : Slot} {value : Value} (takes : slot.Takes value) :
    value.item.Sound := by
  obtain ⟨admitted, printable⟩ := takes
  cases value with
  | list names => exact admitted.isListing.isBare
  | raw text => exact printable
  | path text => exact printable.1

theorem isListing_keyword {word : String} (keyword : isKeyword word = true) : IsListing word := by
  obtain ⟨first, letters⟩ := Bool.and_eq_true_iff.mp keyword
  constructor
  · rintro rfl
    cases first
  · intro c member
    have letter := List.all_eq_true.mp letters c member
    refine .inl ?_
    rcases Bool.or_eq_true_iff.mp letter with alpha | hyphen
    · simp [Name.isIdentifierRest, Name.isIdentifierStart, Char.isAlphanum, alpha]
    · simp [Name.isIdentifierRest, hyphen]

variable {grammar : Grammar}

theorem Visit.Sound.written_keyword {visit : Visit} {below : Grammar} (sound : visit.Sound)
    (clear : grammar.isClear = true) (entry : (visit.keyword, below) ∈ grammar.entries) :
    isKeyword visit.written = true :=
  isKeyword_of_sameWord (Grammar.isClear_entry clear entry).1 sound.spelled

section Items

variable {holds : Lexeme → Prop} (words : ∀ word, isKeyword word = true → holds (.bare word))
  (values : ∀ slot value, Slot.Takes slot value → holds value.item)

include words values

theorem Visit.Sound.items {visit : Visit} {below : Grammar} (sound : visit.Sound)
    (clear : grammar.isClear = true) (entry : (visit.keyword, below) ∈ grammar.entries) :
    ∀ item ∈ visit.items, holds item := by
  have each {slots : List Slot} {given : List Value}
      (filled : List.Forall₂ Slot.Takes slots given) :
      ∀ item ∈ given.map Value.item, holds item := by
    induction filled with
    | nil => nofun
    | cons takes _ ih => exact List.forall_mem_cons.mpr ⟨values _ _ takes, ih⟩
  exact List.forall_mem_cons.mpr ⟨words _ (sound.written_keyword clear entry), each sound.filled⟩

/-- What holds of keywords and of values holds of all items on the way. -/
theorem Grammar.Walk.items {visits : List Visit} (clear : grammar.isClear = true)
    (walk : grammar.Walk visits) : ∀ item ∈ visits.flatMap Visit.items, holds item := by
  induction walk with
  | last entry sound ends =>
      rw [List.flatMap_singleton]
      exact sound.items words values clear entry
  | next entry sound walk ih =>
      rw [List.flatMap_cons]
      intro item member
      rcases List.mem_append.mp member with first | later
      · exact sound.items words values clear entry item first
      · exact ih (Grammar.isClear_entry clear entry).2 item later

end Items

theorem Wording.sound {wording : Wording} (clear : grammar.isClear = true)
    (walk : grammar.Walk wording.visits) (named : ∀ ref ∈ wording.ref, IsBare ref) :
    ∀ item ∈ wording.items, item.Sound := by
  intro item member
  rcases List.mem_append.mp member with within | last
  · exact walk.items (fun _ keyword => (isListing_keyword keyword).isBare)
      (fun _ _ takes => takes.sound) clear item within
  · obtain ⟨ref, given, rfl⟩ := Option.map_eq_some_iff.mp (Option.mem_toList.mp last)
    obtain ⟨-, free⟩ := named ref given
    refine ⟨by simp, ?_⟩
    rw [String.toList_append]
    exact List.forall_mem_cons.mpr ⟨by decide, free⟩

/-- A statement starts with the first keyword. -/
theorem Grammar.Walk.starts {visits : List Visit} (clear : grammar.isClear = true)
    (walk : grammar.Walk visits) :
    ∃ word rest, visits.flatMap Visit.items = .bare word :: rest ∧ isKeyword word = true := by
  cases walk with
  | last entry sound ends => exact ⟨_, _, rfl, sound.written_keyword clear entry⟩
  | next entry sound walk => exact ⟨_, _, rfl, sound.written_keyword clear entry⟩

theorem Command.Printed.whole {command : Command} {statement : Statement}
    (clear : grammar.isClear = true) (printed : Printed grammar command statement) :
    Statement.Whole statement.text.toList := by
  obtain ⟨walk, named, spaced⟩ := printed
  rename_i wording
  have sound : ∀ item ∈ wording.items, item.Sound := wording.sound clear walk named
  obtain ⟨word, rest, first, keyword⟩ := walk.starts clear
  rw [Wording.items, first, List.cons_append] at spaced sound
  obtain ⟨tail, starts⟩ := spaced.starts
  rcases letters : word.toList with _ | ⟨c, more⟩
  · exact absurd (String.toList_eq_nil_iff.mp letters) (isListing_keyword keyword).1
  · have whole : statement.text.toList = c :: (more ++ tail) := by
      rw [starts, Lexeme.written, letters, List.cons_append]
    have alpha : c.isAlpha = true := by
      have begins := (Bool.and_eq_true_iff.mp keyword).1
      rwa [letters] at begins
    have visible := (isListing_keyword keyword).isBare.2 c (by rw [letters]; exact List.mem_cons_self)
    rw [whole] at spaced ⊢
    refine spaced.whole sound visible.1 ⟨?_, visible.2⟩
    rintro rfl
    cases alpha

end Rollout
