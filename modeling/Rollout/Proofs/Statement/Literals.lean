import Rollout.Proofs.Statement.Division
import Mathlib.Algebra.Ring.Parity

/-!
Grave accents come in pairs. A text is cut into statements unless an odd number of them is left
when its comments are taken away; the last one is then to blame. Each statement has an even number
of them, so its words can be told.
-/

namespace Rollout

open Text (allBlank isBlank)

namespace Statement

/-- Where in a text one can be. -/
inductive Zone where
  /-- A statement could start. -/
  | fresh
  | begun
  | literal
  | comment
deriving DecidableEq, Repr

/-- A text without its comments, read on from a place of the given kind. -/
def uncommented : Zone → List Char → List Char
  | _, [] => []
  | .comment, c :: rest =>
      if c = '\n' then c :: uncommented .fresh rest else uncommented .comment rest
  | .literal, c :: rest => c :: uncommented (if c = mark then .begun else .literal) rest
  | zone, c :: rest =>
      if zone = .fresh ∧ c = '-' ∧ rest.head? = some '-' then uncommented .comment rest
      else if c = mark then c :: uncommented .literal rest
      else if c = '\n' ∨ c = ';' then c :: uncommented .fresh rest
      else c :: uncommented (if isBlank c then zone else .begun) rest

/-- The grave accents in a text that are not in a comment. -/
def marks (zone : Zone) (text : List Char) : Nat := (uncommented zone text).count mark

/-- The last grave accent of a text that starts on `line` stands on line `found`. -/
def LastMark (line : Nat) (text : List Char) (found : Nat) : Prop :=
  ∃ before after, text = before ++ mark :: after ∧ mark ∉ after ∧
    found = line + before.count '\n'

/-- Statements are read if the grave accents are paired; if not, the line told is to blame. -/
def Judged (Paired : Prop) (Blamed : Nat → Prop) : Except ParseError (List Statement) → Prop
  | .ok _ => Paired
  | .error error => ¬ Paired ∧ ∃ found, error = .unterminatedLiteral found ∧ Blamed found

def zoneOf (collected : List Char) : Zone := if allBlank collected then .fresh else .begun

variable {line found : Nat} {text rest collected : List Char} {c : Char}

theorem count_lines (line : Nat) (c : Char) (before : List Char) :
    line + [c].count '\n' + before.count '\n' = line + (c :: before).count '\n' := by
  rw [Nat.add_assoc, ← List.count_append, List.singleton_append]

theorem LastMark.cons (last : LastMark (line + [c].count '\n') rest found) :
    LastMark line (c :: rest) found := by
  obtain ⟨before, after, rfl, free, rfl⟩ := last
  exact ⟨c :: before, after, rfl, free, count_lines line c before⟩

theorem Judged.imp {first second : Prop} {blamed others : Nat → Prop}
    {read : Except ParseError (List Statement)} (judged : Judged first blamed read)
    (same : first ↔ second) (blames : ∀ found, blamed found → others found) :
    Judged second others read := by
  cases read with
  | ok statements => exact same.mp judged
  | error error =>
      obtain ⟨fails, found, told, blame⟩ := judged
      exact ⟨fun holds => fails (same.mpr holds), found, told, blames found blame⟩

theorem Judged.map {paired : Prop} {blamed : Nat → Prop}
    {read : Except ParseError (List Statement)} (judged : Judged paired blamed read)
    (f : List Statement → List Statement) : Judged paired blamed (read.map f) := by
  cases read <;> exact judged

section Judging

/-- What is told of a text, read on from outside of literals and comments. -/
def OutsideJudged (text : List Char) : Prop :=
  ∀ line start collected, Judged (Even (marks (zoneOf collected) text)) (LastMark line text)
    (outside line start collected text)

/-- Inside a literal there is one grave accent to come. If there is none, the one that opened the
literal is to blame. -/
def LiteralJudged (text : List Char) : Prop :=
  ∀ opened line start collected, allBlank collected = false →
    Judged (¬ Even (marks .literal text))
      (fun found => LastMark line text found ∨ mark ∉ text ∧ found = opened)
      (literal opened line start collected text)

def CommentJudged (text : List Char) : Prop :=
  ∀ line, Judged (Even (marks .comment text)) (LastMark line text) (comment line text)

theorem uncommented_cons {zone : Zone} (place : zone = .fresh ∨ zone = .begun) :
    uncommented zone (c :: rest) =
      if zone = .fresh ∧ c = '-' ∧ rest.head? = some '-' then uncommented .comment rest
      else if c = mark then c :: uncommented .literal rest
      else if c = '\n' ∨ c = ';' then c :: uncommented .fresh rest
      else c :: uncommented (if isBlank c then zone else .begun) rest := by
  rcases place with rfl | rfl <;> rfl

theorem zoneOf_cases (collected : List Char) :
    zoneOf collected = .fresh ∨ zoneOf collected = .begun := by
  unfold zoneOf
  cases allBlank collected
  · exact .inr rfl
  · exact .inl rfl

theorem zoneOf_cons (collected : List Char) :
    zoneOf (c :: collected) = if isBlank c then zoneOf collected else .begun := by
  cases blank : isBlank c <;> simp [zoneOf, allBlank, blank]

theorem outside_judged (out : OutsideJudged rest) (inLiteral : LiteralJudged rest)
    (inComment : CommentJudged rest) : OutsideJudged (c :: rest) := by
  intro line start collected
  have place := zoneOf_cases collected
  have fresh : zoneOf collected = .fresh ↔ allBlank collected = true := by simp [zoneOf]
  by_cases comments : c = '-' ∧ rest.head? = some '-' ∧ allBlank collected = true
  · have dropped : marks (zoneOf collected) (c :: rest) = marks .comment rest := by
      rw [marks, uncommented_cons place,
        if_pos ⟨fresh.mpr comments.2.2, comments.1, comments.2.1⟩, marks]
    rw [outside, if_pos comments, dropped]
    obtain ⟨rfl, -⟩ := comments
    exact (inComment line).imp .rfl fun found last => .cons last
  · have kept : ¬ (zoneOf collected = .fresh ∧ c = '-' ∧ rest.head? = some '-') := by
      rintro ⟨zone, first, second⟩
      exact comments ⟨first, second, fresh.mp zone⟩
    rw [outside, if_neg comments, marks, uncommented_cons place, if_neg kept]
    by_cases quote : c = mark
    · subst quote
      have begun : allBlank (mark :: collected) = false := by
        have visible : isBlank mark = false := by decide
        simp [allBlank, visible]
      have one : Even ((mark :: uncommented .literal rest).count mark) ↔
          ¬ Even (marks .literal rest) := by
        rw [List.count_cons_self, Nat.even_add_one, marks]
      rw [if_pos rfl, if_neg (by decide), if_neg (by decide), if_pos rfl]
      refine (inLiteral _ line _ _ begun).imp one.symm fun found blame => ?_
      rcases blame with last | ⟨free, rfl⟩
      · exact .cons last
      · exact ⟨[], rest, rfl, free, rfl⟩
    · have others (text : List Char) : (c :: text).count mark = text.count mark :=
        List.count_cons_of_ne quote
      rw [if_neg quote, if_neg quote]
      by_cases ends : c = '\n' ∨ c = ';'
      · have whole := outside_end ends line start collected rest
        rw [outside, if_neg comments, if_neg quote] at whole
        rw [whole, if_pos ends, others]
        exact ((out _ _ []).map _).imp .rfl fun found last => .cons last
      · obtain ⟨feed, semicolon⟩ := not_or.mp ends
        rw [if_neg feed, if_neg semicolon, if_neg ends, others, ← zoneOf_cons]
        refine (out line _ _).imp .rfl fun found last => .cons ?_
        simpa [feed] using last

theorem literal_judged (out : OutsideJudged rest) (inLiteral : LiteralJudged rest) :
    LiteralJudged (c :: rest) := by
  intro opened line start collected begun
  have later : allBlank (c :: collected) = false := allBlank_append begun [c]
  by_cases quote : c = mark
  · subst quote
    have zone : zoneOf (mark :: collected) = .begun := by simp [zoneOf, later]
    have one : ¬ Even (marks .literal (mark :: rest)) ↔ Even (marks .begun rest) := by
      rw [marks, uncommented, if_pos rfl, List.count_cons_self, Nat.even_add_one, marks, not_not]
    rw [literal, if_pos rfl]
    have after := out line start (mark :: collected)
    rw [zone] at after
    exact after.imp one.symm fun found last => .inl (.cons last)
  · have same : marks .literal (c :: rest) = marks .literal rest := by
      rw [marks, uncommented, if_neg quote, List.count_cons_of_ne quote, marks]
    have read : literal opened line start collected (c :: rest) =
        literal opened (line + [c].count '\n') start (c :: collected) rest := by
      rw [literal, if_neg quote]
      by_cases feed : c = '\n' <;> simp [feed]
    rw [read, same]
    refine (inLiteral opened _ start _ later).imp .rfl fun found blame => ?_
    rcases blame with last | ⟨free, rfl⟩
    · exact .inl (.cons last)
    · exact .inr ⟨by simp [Ne.symm quote, free], rfl⟩

theorem comment_judged (out : OutsideJudged rest) (inComment : CommentJudged rest) :
    CommentJudged (c :: rest) := by
  intro line
  by_cases feed : c = '\n'
  · subst feed
    have same : marks .comment ('\n' :: rest) = marks .fresh rest := by
      rw [marks, uncommented, if_pos rfl, List.count_cons_of_ne (by decide), marks]
    rw [comment, if_pos rfl, same]
    exact (out _ _ []).imp .rfl fun found last => .cons last
  · rw [comment, if_neg feed, marks, uncommented, if_neg feed]
    refine (inComment line).imp .rfl fun found last => .cons ?_
    simpa [feed] using last

theorem text_judged (text : List Char) :
    OutsideJudged text ∧ LiteralJudged text ∧ CommentJudged text := by
  induction text with
  | nil =>
      refine ⟨?_, ?_, ?_⟩
      · intro line start collected
        rw [marks, uncommented]
        exact Even.zero
      · intro opened line start collected _
        rw [marks, uncommented]
        exact ⟨not_not.mpr Even.zero, opened, rfl, .inr ⟨nofun, rfl⟩⟩
      · intro line
        rw [marks, uncommented]
        exact Even.zero
  | cons c rest ih =>
      obtain ⟨out, inLiteral, inComment⟩ := ih
      exact ⟨outside_judged out inLiteral inComment, literal_judged out inLiteral,
        comment_judged out inComment⟩

end Judging

theorem Stretch.even {text : List Char} (stretch : Stretch text) : Even (text.count mark) := by
  induction stretch with
  | nil => exact Even.zero
  | plain inside _ ih =>
      rw [List.count_cons_of_ne inside.2.2]
      exact ih
  | @literal inner rest free _ ih =>
      have none : inner.count mark = 0 := List.count_eq_zero.mpr free
      have two : (mark :: inner ++ mark :: rest).count mark = rest.count mark + 2 := by
        rw [List.count_append, List.count_cons_self, List.count_cons_self, none]
        omega
      rw [two]
      exact ih.add even_two

/-- A statement of a divided text stands where its line says. -/
theorem Divided.placed {line : Nat} {text : List Char} {statements : List Statement}
    (divided : Divided line text statements) :
    ∀ statement ∈ statements, Sound statement.text.toList ∧ ∃ before after,
      text = before ++ statement.text.toList ++ after ∧
        statement.line = line + before.count '\n' := by
  induction divided with
  | nothing line => nofun
  | @blank line c rest statements blank more ih =>
      intro statement member
      obtain ⟨sound, before, after, rfl, place⟩ := ih statement member
      refine ⟨sound, c :: before, after, by simp, ?_⟩
      rw [place, count_lines]
  | semicolon more ih =>
      intro statement member
      obtain ⟨sound, before, after, rfl, place⟩ := ih statement member
      exact ⟨sound, ';' :: before, after, by simp, by simpa using place⟩
  | @comment line body rest statements free ends more ih =>
      intro statement member
      obtain ⟨sound, before, after, rfl, place⟩ := ih statement member
      have none : body.count '\n' = 0 := List.count_eq_zero.mpr free
      refine ⟨sound, '-' :: '-' :: body ++ before, after, by simp, ?_⟩
      simp [none, place]
  | @statement line text gap rest statements sound isGap ends more ih =>
      intro statement member
      rcases List.mem_cons.mp member with rfl | later
      · refine ⟨?_, [], gap ++ rest, ?_, rfl⟩
        · rw [String.toList_ofList]
          exact sound
        · rw [String.toList_ofList]
          simp
      · obtain ⟨sound, before, after, rfl, place⟩ := ih statement later
        refine ⟨sound, text ++ gap ++ before, after, by simp, ?_⟩
        simp [isGap_count isGap, place, Nat.add_assoc]

end Statement

namespace Word

theorem letters_isSome (letters : List Char) :
    ((between letters).isSome ↔ Even (letters.count Statement.mark)) ∧
    (∀ collected, (inWord collected letters).isSome ↔ Even (letters.count Statement.mark)) ∧
    ∀ collected, (inLiteral collected letters).isSome ↔ ¬ Even (letters.count Statement.mark) := by
  induction letters with
  | nil => simp [between, inWord, inLiteral]
  | cons c rest ih =>
      obtain ⟨spaces, word, inside⟩ := ih
      by_cases quote : c = Statement.mark
      · subst quote
        have visible : isBlank Statement.mark = false := by decide
        simp [between, inWord, inLiteral, visible, spaces, inside, Nat.even_add_one]
      · rw [List.count_cons_of_ne quote]
        by_cases blank : isBlank c = true
        · simp [between, inWord, inLiteral, blank, quote, spaces, inside]
        · simp [between, inWord, inLiteral, blank, quote, word, inside]

/-- The words of a text can be told if its grave accents are paired. -/
theorem ofText_even {text : String} (even : Even (text.toList.count Statement.mark)) (line : Nat) :
    ∃ words, ofText text line = .ok words := by
  obtain ⟨words, told⟩ := Option.isSome_iff_exists.mp ((letters_isSome text.toList).1.mpr even)
  exact ⟨words, by rw [ofText, told]⟩

end Word

/-- Cutting a text into statements divides it in the one way there is. Every statement stands on
its line, has its grave accents paired, and its words can be told. It fails if and only if an odd
number of grave accents is not in comments, and then the last of the text is to blame. -/
theorem Statement.split_divides (text : String) :
    match Statement.split text with
    | .ok statements =>
        Even (marks .fresh text.toList) ∧
        (∀ others, Divided 1 text.toList others ↔ others = statements) ∧
        ∀ statement ∈ statements, Sound statement.text.toList ∧
          Even (statement.text.toList.count mark) ∧
          (∃ before after, text.toList = before ++ statement.text.toList ++ after ∧
            statement.line = 1 + before.count '\n') ∧
          ∃ words, Word.ofText statement.text statement.line = .ok words
    | .error error =>
        Odd (marks .fresh text.toList) ∧
        (∀ others, ¬ Divided 1 text.toList others) ∧
        ∃ line, error = .unterminatedLiteral line ∧ LastMark 1 text.toList line := by
  have judged : Judged (Even (marks .fresh text.toList)) (LastMark 1 text.toList)
    (split text) := (text_judged text.toList).1 1 1 []
  have all (statements : List Statement) :
      split text = .ok statements ↔ Divided 1 text.toList statements := outside_iff_divided
  cases read : split text with
  | ok statements =>
      have divided := (all statements).mp read
      rw [read] at judged
      refine ⟨judged, fun others => ?_, fun statement member => ?_⟩
      · rw [← all others, read, Except.ok.injEq, eq_comm]
      · obtain ⟨sound, place⟩ := divided.placed statement member
        exact ⟨sound, sound.inside.even, place, Word.ofText_even sound.inside.even _⟩
  | error error =>
      rw [read] at judged
      obtain ⟨odd, line, told, last⟩ := judged
      refine ⟨Nat.not_even_iff_odd.mp odd, fun others divided => ?_, line, told, last⟩
      have ok := (all others).mpr divided
      rw [read] at ok
      cases ok

end Rollout
