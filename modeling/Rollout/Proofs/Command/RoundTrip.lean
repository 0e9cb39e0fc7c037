import Rollout.Grammar.Builtin
import Rollout.Proofs.Command.Printed

/-!
Reading back. The words of a statement in writing lead the way that it was written from: each value
is taken into the slot that it was written for, and each keyword is found in its row.
-/

namespace Rollout

namespace Word

theorem classify_other {letters : List Char} (other : letters.head? ≠ some '#') :
    classify letters =
      if !letters.isEmpty && letters.all Char.isDigit then .integer (String.ofList letters)
      else if !letters.contains ',' && !letters.contains '/' &&
          (Name.qualified? (String.ofList letters)).isSome then
        .qualified (String.ofList letters)
      else .plain (String.ofList letters) := by
  unfold classify
  split
  · exact absurd rfl other
  · rfl

theorem classify_text {letters : List Char} (other : letters.head? ≠ some '#') :
    (classify letters).text = String.ofList letters ∧ (classify letters).isRef = false ∧
      (classify letters).isLiteral = false := by
  rw [classify_other other]
  split
  · exact ⟨rfl, rfl, rfl⟩
  · split <;> exact ⟨rfl, rfl, rfl⟩

theorem classify_ref (ref : String) : classify ("#" ++ ref).toList = .ref ref := by
  rw [String.toList_append]
  change Word.ref (String.ofList ref.toList) = _
  rw [String.ofList_toList]

/-- What could be a path is a path or a pair of names. -/
theorem classify_path {letters : List Char} (digits : letters.all Char.isDigit = false)
    (other : letters.head? ≠ some '#') :
    classify letters = .plain (String.ofList letters) ∨
      classify letters = .qualified (String.ofList letters) := by
  rw [classify_other other, digits, Bool.and_false, if_neg (by decide)]
  split
  · exact .inr rfl
  · exact .inl rfl

theorem classify_keyword {word : String} (keyword : isKeyword word = true) :
    classify word.toList = .plain word := by
  obtain ⟨first, letters⟩ := Bool.and_eq_true_iff.mp keyword
  have free : '.' ∉ word.toList := by
    intro dot
    exact absurd (List.all_eq_true.mp letters '.' dot) (by decide)
  have single : Name.qualified? word = none := by
    rw [Name.qualified?, Text.splitAt_of_free free]
  have digits : word.toList.all Char.isDigit = false := by
    rcases shape : word.toList with _ | ⟨c, rest⟩ <;> rw [shape] at first
    · cases first
    · have letter : c.isAlpha = true := first
      have other : c.isDigit = false := by
        grind [Char.isAlpha, Char.isUpper, Char.isLower, Char.isDigit]
      simp [other]
  rw [classify_other (isListing_keyword keyword).not_ref, digits, String.ofList_toList, single]
  simp

end Word

namespace Command

theorem checkName_passes {kind : Slot.Kind} {name : String} (line : Nat) (filled : name ≠ "")
    (fits : if kind = .names then Name.isIdentifier name = true else Name.IsQualified name) :
    checkName kind line name = .ok name := by
  rw [checkName, if_neg filled]
  split at fits
  · rename_i plain
    rw [if_pos plain, if_pos fits]
  · rename_i other
    obtain ⟨schema, item, split, parts⟩ := fits
    rw [if_neg other, split]
    dsimp only
    rw [if_pos]
    simp only [List.all_cons, List.all_nil, Bool.and_true, Bool.and_eq_true, Bool.or_eq_true,
      beq_iff_eq]
    exact parts

theorem checkNames_passes {kind : Slot.Kind} {names : List String} (line : Nat)
    (each : ∀ name ∈ names, checkName kind line name = .ok name) :
    checkNames kind line names = .ok names := by
  induction names with
  | nil => rfl
  | cons name rest ih =>
      obtain ⟨first, others⟩ := List.forall_mem_cons.mp each
      rw [checkNames, first, ih others]
      rfl

/-- The names that were listed are told apart again, and pass. -/
theorem checkNames_listed {kind : Slot.Kind} {names : List String}
    (admitted : kind.Admits (.list names)) (line : Nat) :
    checkNames kind line (Text.splitAt ',' (",".intercalate names)) = .ok names := by
  obtain ⟨filled, each⟩ := admitted.names
  have free : ∀ name ∈ names, ',' ∉ name.toList := by
    intro name within comma
    rcases (each name within).2 ',' comma with letter | other | other
    · exact absurd letter (by decide)
    all_goals exact absurd other (by decide)
  have apart : Text.splitAt ',' (",".intercalate names) = names :=
    Text.splitAt_intercalate filled free
  rw [apart]
  refine checkNames_passes line fun name within => ?_
  refine checkName_passes line (each name within).1 ?_
  cases kind with
  | names => exact admitted.2 name within
  | qualifiedNames => exact admitted.2 name within
  | sqlText => cases admitted
  | shellText => cases admitted

/-- A slot takes back the value that was written for it. -/
theorem takeValue_item {slot : Slot} {value : Value} (takes : slot.Takes value) (after : String)
    (line : Nat) : takeValue slot value.item.word after line = .ok value := by
  obtain ⟨admitted, printable⟩ := takes
  cases value with
  | list names =>
      obtain ⟨text, ref, literal⟩ := Word.classify_text admitted.isListing.not_ref
      rw [String.ofList_toList] at text
      have listed := checkNames_listed admitted line
      unfold takeValue
      cases kind : slot.kind <;> rw [kind] at admitted listed
      case names | qualifiedNames =>
        simp only [Value.item, Lexeme.word, text, ref, literal, Bool.or_self, Bool.false_eq_true,
          if_false, listed]
        rfl
      all_goals cases admitted
  | raw text =>
      unfold takeValue
      cases kind : slot.kind <;> rw [kind] at admitted
      case sqlText | shellText => rfl
      all_goals cases admitted
  | path text =>
      obtain ⟨-, digits, other⟩ := printable
      cases kind : slot.kind <;> rw [kind] at admitted
      case sqlText =>
        unfold takeValue
        dsimp only
        rw [kind, Value.item, Lexeme.word]
        rcases Word.classify_path digits other with same | same <;>
          rw [same, String.ofList_toList]
      all_goals cases admitted

theorem advance_value {slot : Slot} {value : Value} (takes : slot.Takes value) (line : Nat)
    (passed : List Keyword) (below : Grammar) (slots : List Slot) (arguments : List Argument) :
    Match.advance ⟨passed, below, slot :: slots, arguments⟩ value.item.word line =
      .ok ⟨passed, below, slots, arguments ++ [⟨slot.name, value⟩]⟩ := by
  unfold Match.advance
  dsimp only
  rw [takeValue_item takes]

/-- Words of values go into the slots that are empty, in order. -/
theorem advanceAll_values {slots : List Slot} {values : List Value}
    (filled : List.Forall₂ Slot.Takes slots values) (line : Nat) (passed : List Keyword)
    (below : Grammar) (arguments : List Argument) (words : List Word) :
    Match.advanceAll line ⟨passed, below, slots, arguments⟩
        (values.map (fun value => value.item.word) ++ words) =
      Match.advanceAll line
        ⟨passed, below, [],
          arguments ++ slots.zipWith (fun slot value => ⟨slot.name, value⟩) values⟩ words := by
  induction filled generalizing arguments with
  | nil => simp
  | cons takes filled ih =>
      rw [List.map_cons, List.cons_append, Match.advanceAll, advance_value takes]
      dsimp only
      rw [ih, List.zipWith_cons_cons, List.append_assoc]
      rfl

variable {grammar : Grammar}

/-- The words of a keyword and of its values lead to what may follow it. -/
theorem advanceAll_visit {visit : Visit} {below : Grammar} (clear : grammar.isClear = true)
    (entry : (visit.keyword, below) ∈ grammar.entries) (sound : visit.Sound) (line : Nat)
    (passed : List Keyword) (arguments : List Argument) (words : List Word) :
    Match.advanceAll line ⟨passed, grammar, [], arguments⟩ (visit.items.map Lexeme.word ++ words) =
      Match.advanceAll line
        ⟨visit.keyword :: passed, below, [], arguments ++ visit.arguments⟩ words := by
  have first : Lexeme.word (.bare visit.written) = .plain visit.written :=
    Word.classify_keyword (sound.written_keyword clear entry)
  have found := Grammar.find_entry clear entry sound.spelled
  rw [Visit.items, List.map_cons, first, List.cons_append, Match.advanceAll, Match.advance]
  dsimp only
  rw [found, List.map_map]
  exact advanceAll_values sound.filled line _ below arguments words

theorem advanceAll_walk {visits : List Visit} (clear : grammar.isClear = true)
    (walk : grammar.Walk visits) (line : Nat) (passed : List Keyword) (arguments : List Argument) :
    ∃ below, below.mayEnd = true ∧
      Match.advanceAll line ⟨passed, grammar, [], arguments⟩
          ((visits.flatMap Visit.items).map Lexeme.word) =
        .ok ⟨(visits.map (·.keyword)).reverse ++ passed, below, [],
          arguments ++ visits.flatMap Visit.arguments⟩ := by
  induction walk generalizing passed arguments with
  | @last grammar below visit entry sound ends =>
      refine ⟨below, ends, ?_⟩
      have read := advanceAll_visit clear entry sound line passed arguments []
      simpa [Match.advanceAll] using read
  | @next grammar below visit rest entry sound walk ih =>
      -- a row below a clear one is clear, so the rest of the way is read in it
      obtain ⟨last, ends, read⟩ := ih (Grammar.isClear_entry clear entry).2
        (visit.keyword :: passed) (arguments ++ visit.arguments)
      refine ⟨last, ends, ?_⟩
      rw [List.flatMap_cons, List.map_append, advanceAll_visit clear entry sound, read]
      simp

theorem objectOf_eq (after : List String) (passed : List Keyword) :
    Match.objectOf after passed =
      (passed.find? (·.traits.primary)).map fun keyword =>
        (keyword.name,
          (passed.takeWhile fun keyword => !keyword.traits.primary).reverse.map (·.name) ++
            after) := by
  induction passed generalizing after with
  | nil => rfl
  | cons keyword above ih =>
      unfold Match.objectOf
      cases primary : keyword.traits.primary <;> simp [primary, ih]

/-- At the end of the way stands the command that was written. -/
theorem finish_wording (wording : Wording) {below : Grammar} (ends : below.mayEnd = true)
    (statement : Statement) :
    Match.finish ⟨wording.keywords.reverse, below, [], wording.visits.flatMap Visit.arguments⟩
        wording.ref statement = .ok (wording.command statement) := by
  have path : (wording.keywords.reverse.map (·.name)).reverse = wording.keywords.map (·.name) := by
    simp
  unfold Match.finish
  dsimp only
  rw [if_pos ends]
  simp only [Match.path, path, objectOf_eq, List.append_nil, Option.map_map, Option.bind_map,
    Wording.command, Wording.object?, Wording.belowObject, Function.comp_def]

theorem detachRef_append {words : List Word} (plain : ∀ word ∈ words, word.isRef = false)
    (ref : Option String) :
    detachRef (words ++ (ref.map Word.ref).toList) = (words, ref) := by
  unfold detachRef
  cases ref with
  | none =>
      split
      · rename_i name last
        have member : Word.ref name ∈ words := by simpa using List.mem_of_getLast? last
        cases plain _ member
      · simp
  | some name => simp

theorem value_not_ref {slot : Slot} {value : Value} (takes : slot.Takes value) :
    value.item.word.isRef = false := by
  obtain ⟨admitted, printable⟩ := takes
  cases value with
  | list names => exact (Word.classify_text admitted.isListing.not_ref).2.1
  | raw text => rfl
  | path text => exact (Word.classify_text printable.2.2).2.1

theorem walk_not_ref {visits : List Visit} (clear : grammar.isClear = true)
    (walk : grammar.Walk visits) :
    ∀ word ∈ (visits.flatMap Visit.items).map Lexeme.word, word.isRef = false := by
  have items : ∀ item ∈ visits.flatMap Visit.items, item.word.isRef = false :=
    walk.items
      (fun _ keyword => (Word.classify_text (isListing_keyword keyword).not_ref).2.1)
      (fun _ _ takes => value_not_ref takes) clear
  intro word member
  obtain ⟨item, within, rfl⟩ := List.mem_map.mp member
  exact items item within

theorem ofStatement_printed {command : Command} {statement : Statement}
    (clear : grammar.isClear = true) (printed : Printed grammar command statement) :
    ofStatement grammar statement = .ok command := by
  obtain ⟨walk, named, spaced⟩ := printed
  rename_i wording
  have read := Word.between_spaced spaced (wording.sound clear walk named)
  have items : wording.items.map Lexeme.word =
      (wording.visits.flatMap Visit.items).map Lexeme.word ++
        (wording.ref.map Word.ref).toList := by
    rw [Wording.items, List.map_append]
    cases wording.ref with
    | none => rfl
    | some ref => rw [Option.map_some, Option.map_some, Option.toList_some, Option.toList_some,
        List.map_singleton, Lexeme.word, Word.classify_ref]
  have filled : wording.ref ≠ some "" := by
    intro empty
    exact (named "" empty).1 rfl
  obtain ⟨below, ends, led⟩ := advanceAll_walk clear walk statement.line [] []
  obtain ⟨word, rest, first, keyword⟩ := walk.starts clear
  have plain : Lexeme.word (.bare word) = .plain word := Word.classify_keyword keyword
  unfold ofStatement Word.ofText
  rw [read, items]
  dsimp only
  rw [detachRef_append (walk_not_ref clear walk), if_neg filled]
  -- the first word leads from the grammar as each later one leads from the keyword before it
  rw [first, List.map_cons, plain, Match.advanceAll, Match.advance] at led
  rw [first, List.map_cons, plain]
  dsimp only at led ⊢
  rcases found : grammar.find? word with _ | ⟨root, inside⟩ <;> rw [found] at led <;>
    dsimp only at led ⊢
  · cases led
  · have read : Match.advanceAll statement.line (Match.start root inside)
        (rest.map Lexeme.word) = _ := led
    rw [read]
    simpa [Wording.keywords] using finish_wording wording ends statement

theorem ofStatements_printed {commands : List Command} {statements : List Statement}
    (clear : grammar.isClear = true)
    (printed : List.Forall₂ (Printed grammar) commands statements) :
    ofStatements grammar statements = .ok commands := by
  induction printed with
  | nil => rfl
  | cons first _ ih =>
      rw [ofStatements, ofStatement_printed clear first, ih]
      rfl

theorem printed_whole {commands : List Command} {statements : List Statement}
    (clear : grammar.isClear = true)
    (printed : List.Forall₂ (Printed grammar) commands statements) :
    ∀ statement ∈ statements, Statement.Whole statement.text.toList := by
  induction printed with
  | nil => nofun
  | cons first _ ih => exact List.forall_mem_cons.mpr ⟨first.whole clear, ih⟩

/-- Commands in writing are read back in any grammar whose keywords can be told apart. -/
theorem parse_joined {commands : List Command} {statements : List Statement} {text : List Char}
    (clear : grammar.isClear = true)
    (printed : List.Forall₂ (Printed grammar) commands statements)
    (joined : Statement.Joined 1 statements text) :
    parse grammar (String.ofList text) = .ok commands := by
  have split : Statement.split (String.ofList text) = .ok statements := by
    rw [Statement.split, String.toList_ofList]
    exact Statement.outside_joined joined (printed_whole clear printed)
  rw [parse, split]
  exact ofStatements_printed clear printed

theorem builtin_isClear : Grammar.builtin.isClear = true := by
  decide +kernel

theorem printed_placed {commands : List Command} {statements : List Statement}
    (printed : List.Forall₂ (Printed grammar) commands statements) :
    ∀ command ∈ commands, ∃ statement ∈ statements,
      command.text = statement.text ∧ command.line = statement.line := by
  induction printed with
  | nil => nofun
  | cons first _ ih =>
      intro command member
      rcases List.mem_cons.mp member with rfl | later
      · cases first
        exact ⟨_, List.mem_cons_self, rfl, rfl⟩
      · obtain ⟨statement, within, same⟩ := ih command later
        exact ⟨statement, List.mem_cons_of_mem _ within, same⟩

/-- Parsing undoes printing: commands in writing that are joined by line feeds and semicolons are
read back as they were, and each of them knows the line that it stands on. -/
theorem parse_printed {commands : List Command} {statements : List Statement} {text : List Char}
    (printed : List.Forall₂ (Printed Grammar.builtin) commands statements)
    (joined : Statement.Joined 1 statements text) :
    parse Grammar.builtin (String.ofList text) = .ok commands ∧
      ∀ command ∈ commands, ∃ before after,
        text = before ++ (command.text.toList ++ after) ∧
          command.line = 1 + before.count '\n' := by
  refine ⟨parse_joined builtin_isClear printed joined, fun command member => ?_⟩
  obtain ⟨statement, within, text, line⟩ := printed_placed printed command member
  rw [text, line]
  exact joined.placed statement within

/-- The word that may follow `begin`. -/
def noiseWord : Keyword := Grammar.option 1 "transaction" "Optional noise word" []

def openingVerb : Keyword := Grammar.verb "begin" "Open a transaction" {} []

def scriptVerb : Keyword :=
  Grammar.verb "sql" "Run SQL text or a source file" { primary := true, extArgs := true }
    [Grammar.sqlText]

/-- A transaction that is opened, and a script at a revision that looks like two statements. -/
def openingWording : Wording :=
  ⟨[⟨openingVerb, "BEGIN", []⟩, ⟨noiseWord, "Transaction", []⟩], none⟩

def scriptWording : Wording := ⟨[⟨scriptVerb, "Sql", [.raw "select 1;\n-- 2"]⟩], some "v1"⟩

def openingStatement : Statement := ⟨"BEGIN  Transaction", 1⟩

def scriptStatement : Statement := ⟨"Sql \x60select 1;\n-- 2\x60 #v1", 2⟩

theorem parse_printed_script :
    parse Grammar.builtin (String.ofList (openingStatement.text.toList ++ [';', '\n'] ++
        scriptStatement.text.toList)) =
      .ok [openingWording.command openingStatement, scriptWording.command scriptStatement] := by
  have begins : (openingVerb, Grammar.cons noiseWord .nil .nil) ∈ Grammar.builtin.entries := by
    decide +kernel
  have runs : (scriptVerb, Grammar.nil) ∈ Grammar.builtin.entries := by decide +kernel
  have takes : Grammar.sqlText.Takes (.raw "select 1;\n-- 2") :=
    ⟨trivial, by simp [Value.Printable, Statement.mark]⟩
  have gap : Lexeme.IsGap [' '] ∧ Lexeme.IsGap [' ', ' '] := by
    simp [Lexeme.IsGap, Text.isBlank]
  have opening : Printed Grammar.builtin (openingWording.command openingStatement)
      openingStatement := by
    refine .wording ?_ ?_ ?_
    · exact .next begins ⟨by decide, .nil⟩ (.last List.mem_cons_self ⟨by decide, .nil⟩ rfl)
    · intro ref given
      cases given
    · have letters : openingStatement.text.toList = Lexeme.written (.bare "BEGIN") ++
          ([' ', ' '] ++ Lexeme.written (.bare "Transaction")) := by decide +kernel
      rw [letters]
      exact .next (.bare "BEGIN") gap.2 (.last (.bare "Transaction"))
  have script : Printed Grammar.builtin (scriptWording.command scriptStatement)
      scriptStatement := by
    refine .wording ?_ ?_ ?_
    · exact .last runs ⟨by decide, .cons takes .nil⟩ rfl
    · intro ref given
      cases given
      exact ⟨by decide, by simp [Text.isBlank, Statement.mark]⟩
    · have letters : scriptStatement.text.toList = Lexeme.written (.bare "Sql") ++ ([' '] ++
          (Lexeme.written (.literal "select 1;\n-- 2") ++ ([' '] ++
            Lexeme.written (.bare "#v1")))) := by decide +kernel
      rw [letters]
      exact .next (.bare "Sql") gap.1 (.next (.literal "select 1;\n-- 2") gap.1
        (.last (.bare "#v1")))
  have line : openingStatement.line + openingStatement.text.toList.count '\n' +
      [';', '\n'].count '\n' = scriptStatement.line := by decide +kernel
  have joined : Statement.Joined 1 [openingStatement, scriptStatement]
      (openingStatement.text.toList ++ [';', '\n'] ++ scriptStatement.text.toList) :=
    .next openingStatement (by simp) (by simp) (by rw [line]; exact .last scriptStatement)
  exact (parse_printed (.cons opening (.cons script .nil)) joined).1

end Command

end Rollout
