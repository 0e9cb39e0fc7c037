import Rollout.Command.Parser
import Rollout.Proofs.Statement.Literals

/-!
Texts one below the other. If the first is a sequence of commands, the second is read as it is read
alone, except for the lines that are told.
-/

namespace Rollout

namespace ParseError

/-- The error of the same text, that many lines further down. -/
def shifted (lines : Nat) : ParseError → ParseError
  | unknownCommand command line => unknownCommand command (line + lines)
  | unexpectedWord word after expected line => unexpectedWord word after expected (line + lines)
  | incomplete command expected line => incomplete command expected (line + lines)
  | missingArgument command argument line => missingArgument command argument (line + lines)
  | malformedName name reason line => malformedName name reason (line + lines)
  | unterminatedLiteral line => unterminatedLiteral (line + lines)
  | emptyRef line => emptyRef (line + lines)

variable {Value : Type}

theorem map_nothing (read : Except ParseError (List Value)) : read.map ([] ++ ·) = read := by
  cases read <;> rfl

/-- What is read of the same text that many lines further down, given what becomes of a value. -/
def shiftRead (lines : Nat) (shift : Value → Value) (read : Except ParseError Value) :
    Except ParseError Value :=
  (read.map shift).mapError (·.shifted lines)

end ParseError

open ParseError (shiftRead)

namespace Statement

def shifted (lines : Nat) (statement : Statement) : Statement :=
  { statement with line := statement.line + lines }

theorem close_shifted (lines start : Nat) (collected : List Char) :
    close (start + lines) collected = (close start collected).map (·.shifted lines) := by
  unfold close
  cases Text.trim collected.reverse <;> rfl

theorem startLine_shifted (lines line start : Nat) (collected : List Char) (c : Char) :
    startLine (line + lines) (start + lines) collected c =
      startLine line start collected c + lines := by
  unfold startLine
  split <;> rfl

/-- What has been read before is shifted along. -/
theorem shiftRead_append (lines : Nat) (before : List Statement)
    (read : Except ParseError (List Statement)) :
    shiftRead lines (List.map (·.shifted lines)) (read.map (before ++ ·)) =
      (shiftRead lines (List.map (·.shifted lines)) read).map
        (before.map (·.shifted lines) ++ ·) := by
  cases read with
  | ok statements => exact congrArg Except.ok List.map_append
  | error error => rfl

/-- Further down a text is read the same. -/
theorem read_shifted (lines : Nat) (text : List Char) :
    (∀ line start collected, outside (line + lines) (start + lines) collected text =
      shiftRead lines (List.map (·.shifted lines)) (outside line start collected text)) ∧
    (∀ opened line start collected,
      literal (opened + lines) (line + lines) (start + lines) collected text =
        shiftRead lines (List.map (·.shifted lines)) (literal opened line start collected text)) ∧
    ∀ line, comment (line + lines) text =
      shiftRead lines (List.map (·.shifted lines)) (comment line text) := by
  induction text with
  | nil =>
      refine ⟨fun line start collected => ?_, fun _ _ _ _ => rfl, fun _ => rfl⟩
      exact congrArg Except.ok (close_shifted lines start collected)
  | cons c rest ih =>
      obtain ⟨out, inLiteral, inComment⟩ := ih
      have feed (line : Nat) : line + lines + 1 = line + 1 + lines :=
        Nat.add_right_comm line lines 1
      refine ⟨?_, ?_, ?_⟩
      · intro line start collected
        simp only [outside, feed, startLine_shifted, out, inLiteral, inComment, close_shifted,
          ← shiftRead_append]
        split_ifs <;> rfl
      · intro opened line start collected
        simp only [literal, feed, out, inLiteral]
        split_ifs <;> rfl
      · intro line
        simp only [comment, feed, out, inComment]
        split_ifs <;> rfl

section Below

variable {below : List Char}

/-- What comes of a text that has been read to the end when another one stands below it: nothing is
carried over from one to the other. -/
def Continues (below : List Char) (line : Nat) (text : List Char)
    (alone both : Except ParseError (List Statement)) : Prop :=
  ∀ statements, alone = .ok statements →
    both = (outside (line + text.count '\n' + 1) (line + text.count '\n' + 1) [] below).map
      (statements ++ ·)

theorem Continues.cons {line : Nat} {c : Char} {rest : List Char}
    {alone both : Except ParseError (List Statement)}
    (continues : Continues below (line + [c].count '\n') rest alone both) :
    Continues below line (c :: rest) alone both := by
  intro statements read
  rw [continues statements read, count_lines]

theorem Continues.other {line : Nat} {c : Char} {rest : List Char}
    {alone both : Except ParseError (List Statement)} (other : c ≠ '\n')
    (continues : Continues below line rest alone both) :
    Continues below line (c :: rest) alone both := by
  refine .cons ?_
  rwa [List.count_singleton, if_neg (by simpa using other)]

theorem Continues.map {line : Nat} {text : List Char} {first : List Statement}
    {alone both : Except ParseError (List Statement)}
    (continues : Continues below line text alone both) :
    Continues below line text (alone.map (first ++ ·)) (both.map (first ++ ·)) := by
  intro statements read
  cases alone with
  | error error => cases read
  | ok more =>
      cases read
      rw [continues more rfl]
      cases outside (line + text.count '\n' + 1) (line + text.count '\n' + 1) [] below with
      | error error => rfl
      | ok others => exact congrArg Except.ok (List.append_assoc first more others).symm

/-- A text is read on below only if it came to an end; one that ends inside of a literal is not
read at all. -/
theorem read_below (below text : List Char) :
    (∀ line start collected, Continues below line text (outside line start collected text)
      (outside line start collected (text ++ '\n' :: below))) ∧
    (∀ opened line start collected,
      Continues below line text (literal opened line start collected text)
        (literal opened line start collected (text ++ '\n' :: below))) ∧
    ∀ line, Continues below line text (comment line text)
      (comment line (text ++ '\n' :: below)) := by
  induction text with
  | nil =>
      refine ⟨?_, ?_, ?_⟩
      · rintro line start collected statements read
        obtain rfl := Except.ok.inj read
        rw [List.nil_append, outside_end (.inl rfl)]
        rfl
      · rintro opened line start collected statements read
        cases read
      · rintro line statements read
        obtain rfl := Except.ok.inj read
        rw [List.nil_append, comment, if_pos rfl, ParseError.map_nothing]
        rfl
  | cons c rest ih =>
      obtain ⟨out, inLiteral, inComment⟩ := ih
      have same : (rest ++ '\n' :: below).head? = some '-' ↔ rest.head? = some '-' := by
        cases rest <;> simp
      refine ⟨?_, ?_, ?_⟩
      · intro line start collected
        simp only [List.cons_append, outside, same]
        split_ifs with comments feed semicolon quote
        · refine .cons ?_
          rw [comments.1]
          exact inComment line
        · subst feed
          exact .cons (out _ _ []).map
        · subst semicolon
          exact .cons (out line line []).map
        · subst quote
          exact .cons (inLiteral line line _ _)
        · exact .other feed (out line _ _)
      · intro opened line start collected
        simp only [List.cons_append, literal]
        split_ifs with quote feed
        · subst quote
          exact .cons (out line start _)
        · subst feed
          exact .cons (inLiteral opened _ start _)
        · exact .other feed (inLiteral opened line start _)
      · intro line
        simp only [List.cons_append, comment]
        split_ifs with feed
        · subst feed
          exact .cons (out _ _ [])
        · exact .other feed (inComment line)

end Below

/-- Below a text that can be cut into statements, another one is cut on its own. -/
theorem split_below {first : String} {statements : List Statement}
    (cut : split first = .ok statements) (second : String) :
    split (first ++ "\n" ++ second) =
      (shiftRead (1 + first.toList.count '\n')
        (List.map (·.shifted (1 + first.toList.count '\n'))) (split second)).map
          (statements ++ ·) := by
  have both := (read_below second.toList first.toList).1 1 1 [] statements cut
  have lines : 1 + first.toList.count '\n' + 1 = 1 + (1 + first.toList.count '\n') :=
    Nat.add_comm _ 1
  rw [lines, (read_shifted _ second.toList).1] at both
  have letters : (first ++ "\n" ++ second).toList =
      first.toList ++ '\n' :: second.toList := by
    simp [String.toList_append]
  rw [split, letters, both, split]

end Statement

namespace Command

def shifted (lines : Nat) (command : Command) : Command :=
  { command with line := command.line + lines }

section Shifted

variable (lines line : Nat)

theorem checkName_shifted (kind : Slot.Kind) (name : String) :
    checkName kind (line + lines) name = shiftRead lines id (checkName kind line name) := by
  unfold checkName
  split_ifs
  · rfl
  · rfl
  · rfl
  · split
    · rfl
    · split <;> rfl

theorem checkNames_shifted (kind : Slot.Kind) (names : List String) :
    checkNames kind (line + lines) names = shiftRead lines id (checkNames kind line names) := by
  induction names with
  | nil => rfl
  | cons name rest ih =>
      rw [checkNames, checkNames, checkName_shifted, ih]
      cases checkName kind line name with
      | error problem => rfl
      | ok name => cases checkNames kind line rest <;> rfl

theorem takeValue_shifted (slot : Slot) (word : Word) (after : String) :
    takeValue slot word after (line + lines) =
      shiftRead lines id (takeValue slot word after line) := by
  unfold takeValue
  dsimp only
  cases slot.kind with
  | names | qualifiedNames =>
      dsimp only
      split
      · rfl
      · rw [checkNames_shifted]
        cases checkNames _ line (Text.splitAt ',' word.text) <;> rfl
  | sqlText | shellText => cases word <;> rfl

namespace Match

theorem advance_shifted (spot : Match) (word : Word) :
    spot.advance word (line + lines) = shiftRead lines id (spot.advance word line) := by
  unfold advance
  cases spot.slots with
  | nil =>
      dsimp only
      split <;> rfl
  | cons slot slots =>
      dsimp only
      rw [takeValue_shifted]
      cases takeValue slot word spot.words line <;> rfl

theorem advanceAll_shifted (spot : Match) (words : List Word) :
    advanceAll (line + lines) spot words = shiftRead lines id (advanceAll line spot words) := by
  induction words generalizing spot with
  | nil => rfl
  | cons word rest ih =>
      rw [advanceAll, advanceAll, advance_shifted]
      cases spot.advance word line with
      | error problem => rfl
      | ok spot => exact ih spot

theorem finish_shifted (spot : Match) (ref : Option String) (statement : Statement) :
    spot.finish ref (statement.shifted lines) =
      shiftRead lines (·.shifted lines) (spot.finish ref statement) := by
  unfold finish
  cases spot.slots with
  | nil =>
      dsimp only
      split <;> rfl
  | cons slot slots => rfl

end Match

theorem ofText_shifted (text : String) :
    Word.ofText text (line + lines) = shiftRead lines id (Word.ofText text line) := by
  unfold Word.ofText
  cases Word.between text.toList <;> rfl

end Shifted

/-- A statement further down is the same command. -/
theorem ofStatement_shifted (grammar : Grammar) (lines : Nat) (statement : Statement) :
    ofStatement grammar (statement.shifted lines) =
      shiftRead lines (·.shifted lines) (ofStatement grammar statement) := by
  have words : Word.ofText (statement.shifted lines).text (statement.shifted lines).line =
      shiftRead lines id (Word.ofText statement.text statement.line) :=
    ofText_shifted lines statement.line statement.text
  unfold ofStatement
  rw [words]
  cases Word.ofText statement.text statement.line with
  | error problem => rfl
  | ok words =>
      dsimp only [shiftRead, Except.map, Except.mapError, id]
      split
      · rfl
      · split
        · rfl
        · split
          · rfl
          · rename_i first rest _ _ keyword below _
            have advanced := Match.advanceAll_shifted lines statement.line
              (Match.start keyword below) rest
            rw [show (statement.shifted lines).line = statement.line + lines from rfl, advanced]
            cases Match.advanceAll statement.line (Match.start keyword below) rest with
            | error problem => rfl
            | ok spot => exact spot.finish_shifted lines (detachRef words).2 statement

theorem ofStatements_shifted (grammar : Grammar) (lines : Nat) (statements : List Statement) :
    ofStatements grammar (statements.map (·.shifted lines)) =
      shiftRead lines (List.map (·.shifted lines)) (ofStatements grammar statements) := by
  induction statements with
  | nil => rfl
  | cons statement rest ih =>
      rw [List.map_cons, ofStatements, ofStatements, ofStatement_shifted, ih]
      cases ofStatement grammar statement with
      | error problem => rfl
      | ok command => cases ofStatements grammar rest <;> rfl

theorem ofStatements_append {grammar : Grammar} {first : List Statement} {commands : List Command}
    (read : ofStatements grammar first = .ok commands) (second : List Statement) :
    ofStatements grammar (first ++ second) =
      (ofStatements grammar second).map (commands ++ ·) := by
  induction first generalizing commands with
  | nil =>
      cases read
      rw [List.nil_append, ParseError.map_nothing]
  | cons statement rest ih =>
      rw [ofStatements] at read
      rw [List.cons_append, ofStatements]
      cases one : ofStatement grammar statement with
      | error problem => rw [one] at read; cases read
      | ok command =>
          rw [one] at read
          cases more : ofStatements grammar rest with
          | error problem => rw [more] at read; cases read
          | ok others =>
              rw [more] at read
              cases read
              dsimp only
              rw [ih more]
              cases ofStatements grammar second <;> rfl

/-- Below a text of commands another text is read on its own, and only its lines are others. -/
theorem parse_below {grammar : Grammar} {first : String} {commands : List Command}
    (read : parse grammar first = .ok commands) (second : String) :
    parse grammar (first ++ "\n" ++ second) =
      (shiftRead (1 + first.toList.count '\n')
        (List.map (·.shifted (1 + first.toList.count '\n'))) (parse grammar second)).map
          (commands ++ ·) := by
  unfold parse at read
  cases cut : Statement.split first with
  | error problem => rw [cut] at read; cases read
  | ok statements =>
      rw [cut] at read
      unfold parse
      rw [Statement.split_below cut]
      cases Statement.split second with
      | error problem => rfl
      | ok others =>
          have all := ofStatements_append read
            (others.map (·.shifted (1 + first.toList.count '\n')))
          rw [ofStatements_shifted] at all
          exact all

end Command

end Rollout
