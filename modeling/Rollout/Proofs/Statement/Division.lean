import Rollout.Word
import Rollout.Proofs.Statement

/-!
Cutting a text into statements divides it: every character belongs to one statement, or is white
space, a semicolon between statements or part of a comment. A text has one such division, unless a
literal stays open in it.
-/

namespace Rollout

namespace Text

variable {blanks text : List Char}

theorem trimStart_append (blank : allBlank blanks = true) (text : List Char) :
    trimStart (blanks ++ text) = trimStart text := by
  have all : ∀ c ∈ blanks, isBlank c = true := List.all_eq_true.mp blank
  simp only [trimStart]
  rw [List.dropWhile_append_of_pos all]

theorem trim_append (blank : allBlank blanks = true) (text : List Char) :
    trim (blanks ++ text) = trim text := by
  rw [trim, trimStart_append blank, trim]

/-- White space behind a text that has none at its ends is all that is trimmed. -/
theorem trim_append_blank (starts : ∀ c ∈ text.head?, isBlank c = false)
    (ends : ∀ c ∈ text.getLast?, isBlank c = false) (filled : text ≠ [])
    (blank : allBlank blanks = true) : trim (text ++ blanks) = text := by
  obtain ⟨c, rest, rfl⟩ := List.exists_cons_of_ne_nil filled
  have first : trimStart (c :: rest ++ blanks) = c :: rest ++ blanks := by
    simp [trimStart, starts c rfl]
  have all : ∀ c ∈ blanks.reverse, isBlank c = true := by
    intro c member
    exact List.all_eq_true.mp blank c (List.mem_reverse.mp member)
  have trimmed := trim_eq starts ends
  rw [trim, show trimStart (c :: rest) = c :: rest by simp [trimStart, starts c rfl]] at trimmed
  rw [trim, first, trimEnd, List.reverse_append, List.dropWhile_append_of_pos all]
  exact trimmed

end Text

namespace Statement

/-- The text of a statement: there is no white space at its ends, its literals are closed, nothing
outside of them ends it, and it does not start as a comment does. -/
structure Sound (text : List Char) : Prop where
  filled : text ≠ []
  starts : ∀ c ∈ text.head?, Text.isBlank c = false
  ends : ∀ c ∈ text.getLast?, Text.isBlank c = false
  opens : ¬ ['-', '-'] <+: text
  inside : Stretch text

/-- White space that does not end a statement. -/
def IsGap (gap : List Char) : Prop := ∀ c ∈ gap, Text.isBlank c = true ∧ c ≠ '\n'

/-- A text that starts on the given line, divided into statements and what is none: white space,
semicolons, and comments, which start where a statement could and run to the end of their line. A
statement knows the line it starts on, and ends with the text, the line or at a semicolon. -/
inductive Divided : Nat → List Char → List Statement → Prop where
  | nothing (line : Nat) : Divided line [] []
  | blank {line : Nat} {c : Char} {rest : List Char} {statements : List Statement}
      (blank : Text.isBlank c = true) (more : Divided (line + [c].count '\n') rest statements) :
      Divided line (c :: rest) statements
  | semicolon {line : Nat} {rest : List Char} {statements : List Statement}
      (more : Divided line rest statements) : Divided line (';' :: rest) statements
  | comment {line : Nat} {body rest : List Char} {statements : List Statement}
      (free : '\n' ∉ body) (ends : ∀ c ∈ rest.head?, c = '\n')
      (more : Divided line rest statements) :
      Divided line ('-' :: '-' :: body ++ rest) statements
  | statement {line : Nat} {text gap rest : List Char} {statements : List Statement}
      (sound : Sound text) (isGap : IsGap gap) (ends : ∀ c ∈ rest.head?, c = '\n' ∨ c = ';')
      (more : Divided (line + text.count '\n') rest statements) :
      Divided line (text ++ gap ++ rest) (⟨String.ofList text, line⟩ :: statements)

theorem isGap_allBlank {gap : List Char} (isGap : IsGap gap) : Text.allBlank gap = true :=
  List.all_eq_true.mpr fun c member => (isGap c member).1

theorem blank_other {c : Char} (blank : Text.isBlank c = true) :
    c ≠ '-' ∧ c ≠ ';' ∧ c ≠ mark := by
  refine ⟨?_, ?_, ?_⟩ <;> rintro rfl <;> exact absurd blank (by decide)

theorem isGap_stretch {gap : List Char} (isGap : IsGap gap) : Stretch gap := by
  induction gap with
  | nil => exact .nil
  | cons c rest ih =>
      obtain ⟨⟨blank, feed⟩, others⟩ := List.forall_mem_cons.mp isGap
      obtain ⟨-, semicolon, quote⟩ := blank_other blank
      exact .plain ⟨feed, semicolon, quote⟩ (ih others)

theorem isGap_count {gap : List Char} (isGap : IsGap gap) : gap.count '\n' = 0 :=
  List.count_eq_zero.mpr fun member => (isGap _ member).2 rfl

theorem hyphens_iff {c : Char} {rest : List Char} :
    ['-', '-'] <+: c :: rest ↔ c = '-' ∧ rest.head? = some '-' := by
  cases rest with
  | nil => simp [List.cons_prefix_cons]
  | cons d rest => simp [List.cons_prefix_cons, eq_comm]

section Lead

/-- White space before what has been collected is trimmed in the end. -/
theorem close_lead {lead : List Char} (blank : Text.allBlank lead = true) (start : Nat)
    (collected : List Char) : close start (collected ++ lead) = close start collected := by
  have reversed : Text.allBlank lead.reverse = true := by
    simpa [Text.allBlank] using blank
  unfold close
  rw [List.reverse_append, Text.trim_append reversed]

theorem close_blank {collected : List Char} (blank : Text.allBlank collected = true)
    (start : Nat) : close start collected = [] := by
  have none := close_lead blank start []
  rw [List.nil_append] at none
  exact none

theorem read_lead {lead : List Char} (blank : Text.allBlank lead = true) (text : List Char) :
    (∀ line start collected, Text.allBlank collected = false →
      outside line start (collected ++ lead) text = outside line start collected text) ∧
    ∀ opened line start collected, Text.allBlank collected = false →
      literal opened line start (collected ++ lead) text =
        literal opened line start collected text := by
  induction text with
  | nil =>
      refine ⟨fun line start collected _ => ?_, fun _ _ _ _ _ => rfl⟩
      simp only [outside, close_lead blank]
  | cons c rest ih =>
      obtain ⟨out, inLiteral⟩ := ih
      constructor
      · intro line start collected begun
        have still : Text.allBlank (collected ++ lead) = false := by
          simp only [Text.allBlank, List.all_append, Bool.and_eq_false_iff]
          exact .inl begun
        have later : Text.allBlank (c :: collected) = false := allBlank_append begun [c]
        simp only [outside, startLine, begun, still, close_lead blank, ← List.cons_append,
          out _ _ _ later, inLiteral _ _ _ _ later]
      · intro opened line start collected begun
        have later : Text.allBlank (c :: collected) = false := allBlank_append begun [c]
        simp only [literal, ← List.cons_append, out _ _ _ later, inLiteral _ _ _ _ later]

/-- As long as only white space has been collected, it is as if nothing had been. -/
theorem outside_fresh {collected : List Char} (blank : Text.allBlank collected = true)
    (line start : Nat) (text : List Char) :
    outside line start collected text = outside line line [] text := by
  induction text generalizing collected start with
  | nil => simp only [outside, close_blank blank]; rfl
  | cons c rest ih =>
      have none : close line [] = [] := rfl
      have nothing : Text.allBlank [] = true := rfl
      simp only [outside, blank, nothing, close_blank blank, none]
      by_cases white : Text.isBlank c = true
      · have still : Text.allBlank (c :: collected) = true := by
          simpa [Text.allBlank, white] using blank
        have alone : Text.allBlank [c] = true := by simp [Text.allBlank, white]
        obtain ⟨-, -, quote⟩ := blank_other white
        simp only [quote, if_false, ih still, ih alone]
      · have begun : Text.allBlank [c] = false := by simpa [Text.allBlank] using white
        have lead := read_lead blank rest
        have both : startLine line start collected c = line ∧ startLine line line [] c = line := by
          simp [startLine, blank, nothing, white]
        rw [both.1, both.2, ← List.singleton_append, lead.1 _ _ _ begun, lead.2 _ _ _ _ begun]

end Lead

section Reading

/-- A statement that began on line `start` goes on after `read` on the given line. -/
structure Underway (start line : Nat) (read text : List Char) : Prop where
  filled : read ≠ []
  starts : ∀ c ∈ read.head?, Text.isBlank c = false
  opens : ¬ ['-', '-'] <+: read ++ text
  lines : line = start + read.count '\n'

/-- What has been read of a statement while no literal is open: white space at its end counts only
if more follows. -/
structure Settled (body gap : List Char) : Prop where
  filled : body ≠ []
  ends : ∀ c ∈ body.getLast?, Text.isBlank c = false
  inside : Stretch body
  isGap : IsGap gap

variable {start line : Nat} {read body gap text rest : List Char} {c : Char}

theorem Underway.next (underway : Underway start line read (c :: rest)) :
    Underway start (line + [c].count '\n') (read ++ [c]) rest where
  filled := by simp
  starts := by
    intro d first
    apply underway.starts d
    obtain ⟨e, more, rfl⟩ := List.exists_cons_of_ne_nil underway.filled
    exact first
  opens := by
    rw [List.append_assoc, List.singleton_append]
    exact underway.opens
  lines := by rw [List.count_append, underway.lines, Nat.add_assoc]

theorem Underway.begun (underway : Underway start line read text) :
    Text.allBlank read.reverse = false := by
  obtain ⟨c, more, rfl⟩ := List.exists_cons_of_ne_nil underway.filled
  have visible := underway.starts c rfl
  simp [Text.allBlank, visible]

/-- The first character of a statement. -/
theorem underway_first (visible : Text.isBlank c = false) (opens : ¬ ['-', '-'] <+: c :: rest) :
    Underway line line [c] rest where
  filled := by simp
  starts := by simpa using visible
  opens := opens
  lines := by
    have feed : c ≠ '\n' := by
      rintro rfl
      exact absurd visible (by decide)
    simp [feed]

theorem Settled.sound (settled : Settled body gap)
    (underway : Underway start line (body ++ gap) text) : Sound body where
  filled := settled.filled
  starts := by
    intro c first
    apply underway.starts c
    obtain ⟨d, more, rfl⟩ := List.exists_cons_of_ne_nil settled.filled
    exact first
  ends := settled.ends
  opens := by
    intro opens
    apply underway.opens
    rw [List.append_assoc]
    exact opens.trans (List.prefix_append _ _)
  inside := settled.inside

theorem Settled.blank (settled : Settled body gap) (blank : Text.isBlank c = true)
    (feed : c ≠ '\n') : Settled body (gap ++ [c]) := by
  refine ⟨settled.filled, settled.ends, settled.inside, ?_⟩
  intro d member
  rcases List.mem_append.mp member with before | last
  · exact settled.isGap d before
  · obtain rfl := List.mem_singleton.mp last
    exact ⟨blank, feed⟩

theorem Settled.plain (settled : Settled body gap) (visible : Text.isBlank c = false)
    (inside : c ≠ '\n' ∧ c ≠ ';' ∧ c ≠ mark) : Settled (body ++ gap ++ [c]) [] := by
  refine ⟨by simp, by simpa using visible, ?_, by simp [IsGap]⟩
  exact (settled.inside.append (isGap_stretch settled.isGap)).append (.plain inside .nil)

/-- A literal that closes is part of the statement. -/
theorem settled_literal {prior inner : List Char} (before : Stretch prior) (free : mark ∉ inner) :
    Settled (prior ++ mark :: inner ++ [mark]) [] := by
  refine ⟨by simp, ?_, ?_, by simp [IsGap]⟩
  · simp only [List.getLast?_append, List.getLast?_singleton]
    intro c last
    obtain rfl : mark = c := by simpa using last
    decide
  · rw [List.append_assoc]
    exact before.append (.literal free .nil)

theorem close_settled (settled : Settled body gap) (sound : Sound body) (start : Nat) :
    close start (body ++ gap).reverse = [⟨String.ofList body, start⟩] := by
  obtain ⟨c, more, rfl⟩ := List.exists_cons_of_ne_nil settled.filled
  have trimmed := Text.trim_append_blank sound.starts sound.ends sound.filled
    (isGap_allBlank settled.isGap)
  simp only [close, List.reverse_reverse, trimmed]

/-- Once a statement has begun, a grave accent opens a literal in it. -/
theorem outside_mark {collected : List Char} (begun : Text.allBlank collected = false)
    (line start : Nat) (rest : List Char) :
    outside line start collected (mark :: rest) =
      literal line line start (mark :: collected) rest := by
  rw [outside, if_neg (by simp [begun]), if_neg (by decide), if_neg (by decide), if_pos rfl,
    startLine, begun]
  rfl

/-- Before a statement has begun, there is nothing to end. -/
theorem outside_restart (ends : c = '\n' ∨ c = ';') (line : Nat) (rest : List Char) :
    outside line line [] (c :: rest) =
      outside (line + [c].count '\n') (line + [c].count '\n') [] rest := by
  have separates : ∀ d ∈ [c], d = '\n' ∨ d = ';' := by simpa using ends
  exact outside_separator separates line rest

/-- What ends a statement can as well be read on from as if nothing had come before. -/
theorem outside_ended (ends : ∀ c ∈ rest.head?, c = '\n' ∨ c = ';') (line start : Nat)
    (collected : List Char) :
    outside line start collected rest =
      (outside line line [] rest).map (close start collected ++ ·) := by
  cases rest with
  | nil =>
      have none : close line [] = [] := rfl
      simp [outside, none, Except.map]
  | cons c rest =>
      rw [outside_end (ends c rfl), outside_restart (ends c rfl)]

theorem comment_body (free : '\n' ∉ body) (ends : ∀ c ∈ rest.head?, c = '\n') (line : Nat) :
    comment line (body ++ rest) = outside line line [] rest := by
  induction body with
  | nil =>
      cases rest with
      | nil => rfl
      | cons c rest =>
          obtain rfl := ends c rfl
          rw [List.nil_append, comment, if_pos rfl, outside_restart (.inl rfl)]
          rfl
  | cons c body ih =>
      rw [List.mem_cons, not_or] at free
      rw [List.cons_append, comment, if_neg (Ne.symm free.1), ih free.2]

end Reading

section Sound

variable {rest : List Char}

/-- From where a statement could start, each way of reading gives a division. -/
def FreshDivides (text : List Char) : Prop :=
  ∀ line statements, outside line line [] text = .ok statements → Divided line text statements

def BegunDivides (text : List Char) : Prop :=
  ∀ start line body gap statements, Underway start line (body ++ gap) text → Settled body gap →
    outside line start (body ++ gap).reverse text = .ok statements →
      Divided start (body ++ gap ++ text) statements

def LiteralDivides (text : List Char) : Prop :=
  ∀ opened start line prior inner statements,
    Underway start line (prior ++ mark :: inner) text → Stretch prior → mark ∉ inner →
    literal opened line start (prior ++ mark :: inner).reverse text = .ok statements →
      Divided start (prior ++ mark :: inner ++ text) statements

def CommentDivides (text : List Char) : Prop :=
  ∀ line statements, comment line text = .ok statements →
    ∃ body rest, text = body ++ rest ∧ '\n' ∉ body ∧ (∀ c ∈ rest.head?, c = '\n') ∧
      Divided line rest statements

/-- Where a statement ends, what follows is divided on its own. -/
theorem ended_divides {start line : Nat} {body gap text : List Char} {statements : List Statement}
    (fresh : FreshDivides text) (ends : ∀ c ∈ text.head?, c = '\n' ∨ c = ';')
    (underway : Underway start line (body ++ gap) text) (settled : Settled body gap)
    (read : outside line start (body ++ gap).reverse text = .ok statements) :
    Divided start (body ++ gap ++ text) statements := by
  have sound := settled.sound underway
  rw [outside_ended ends, close_settled settled sound] at read
  cases after : outside line line [] text with
  | error error => rw [after] at read; cases read
  | ok more =>
      rw [after] at read
      cases read
      refine .statement sound settled.isGap ends ?_
      have lines := underway.lines
      rw [List.count_append, isGap_count settled.isGap, Nat.add_zero] at lines
      rw [← lines]
      exact fresh line more after

theorem begun_divides {c : Char} (fresh : FreshDivides (c :: rest)) (begun : BegunDivides rest)
    (inLiteral : LiteralDivides rest) : BegunDivides (c :: rest) := by
  intro start line body gap statements underway settled read
  by_cases ends : c = '\n' ∨ c = ';'
  · exact ended_divides fresh (by simpa using ends) underway settled read
  · obtain ⟨feed, semicolon⟩ := not_or.mp ends
    have next := underway.next
    rw [List.count_singleton, if_neg (by simpa using feed), Nat.add_zero] at next
    have shift : body ++ gap ++ c :: rest = body ++ gap ++ [c] ++ rest := by simp
    rw [shift]
    by_cases quote : c = mark
    · subst quote
      rw [outside_mark underway.begun, ← List.reverse_concat] at read
      have before := settled.inside.append (isGap_stretch settled.isGap)
      exact inLiteral line start line (body ++ gap) [] statements next before List.not_mem_nil read
    · rw [outside_plain underway.begun line start ⟨feed, semicolon, quote⟩,
        ← List.reverse_concat] at read
      by_cases blank : Text.isBlank c = true
      · rw [List.append_assoc body] at next read ⊢
        exact begun start line body (gap ++ [c]) statements next (settled.blank blank feed) read
      · have visible : Text.isBlank c = false := by simpa using blank
        have more := settled.plain visible ⟨feed, semicolon, quote⟩
        rw [← List.append_nil (body ++ gap ++ [c])] at next read ⊢
        exact begun start line _ [] statements next more read

theorem literal_divides {c : Char} (begun : BegunDivides rest) (inLiteral : LiteralDivides rest) :
    LiteralDivides (c :: rest) := by
  intro opened start line prior inner statements underway before free read
  have next := underway.next
  have shift : prior ++ mark :: inner ++ c :: rest = prior ++ mark :: inner ++ [c] ++ rest := by
    simp
  rw [shift]
  by_cases quote : c = mark
  · subst quote
    rw [literal, if_pos rfl, ← List.reverse_concat] at read
    rw [← List.append_nil (prior ++ mark :: inner ++ [mark])] at next read ⊢
    exact begun start line _ [] statements next (settled_literal before free) read
  · have still : mark ∉ inner ++ [c] := by simp [free, Ne.symm quote]
    have read : literal opened (line + [c].count '\n') start
        (prior ++ mark :: inner ++ [c]).reverse rest = .ok statements := by
      rw [List.reverse_concat, ← read, literal, if_neg quote]
      by_cases feed : c = '\n' <;> simp [feed]
    rw [List.append_assoc prior, List.cons_append] at next read ⊢
    exact inLiteral opened start _ prior (inner ++ [c]) statements next before still read

theorem comment_divides {c : Char} (fresh : FreshDivides rest) (inComment : CommentDivides rest) :
    CommentDivides (c :: rest) := by
  intro line statements read
  by_cases feed : c = '\n'
  · subst feed
    rw [comment, if_pos rfl] at read
    refine ⟨[], '\n' :: rest, rfl, List.not_mem_nil, by simp, .blank (by decide) ?_⟩
    exact fresh _ _ read
  · rw [comment, if_neg feed] at read
    obtain ⟨body, after, rfl, free, ends, more⟩ := inComment line statements read
    exact ⟨c :: body, after, rfl, by simp [Ne.symm feed, free], ends, more⟩

theorem fresh_divides {c : Char} (fresh : FreshDivides rest) (begun : BegunDivides rest)
    (inLiteral : LiteralDivides rest) (inComment : CommentDivides rest) :
    FreshDivides (c :: rest) := by
  intro line statements read
  by_cases ends : c = '\n' ∨ c = ';'
  · rw [outside_restart ends] at read
    have more := fresh _ _ read
    rcases ends with rfl | rfl
    · exact .blank (by decide) more
    · exact .semicolon more
  obtain ⟨feed, semicolon⟩ := not_or.mp ends
  by_cases hyphens : ['-', '-'] <+: c :: rest
  · -- a comment: it keeps its second hyphen until it is skipped
    obtain ⟨rfl, second⟩ := hyphens_iff.mp hyphens
    rw [outside, if_pos ⟨rfl, second, rfl⟩] at read
    obtain ⟨body, tail, same, free, stops, more⟩ := inComment line statements read
    cases body with
    | nil =>
        subst same
        exact absurd (stops '-' second) (by decide)
    | cons d body =>
        subst same
        obtain rfl : d = '-' := by simpa using second
        rw [List.mem_cons, not_or] at free
        exact .comment free.2 stops more
  · have first : ¬ (c = '-' ∧ rest.head? = some '-' ∧ Text.allBlank [] = true) := by
      rintro ⟨hyphen, second, -⟩
      exact hyphens (hyphens_iff.mpr ⟨hyphen, second⟩)
    rw [outside, if_neg first, if_neg feed, if_neg semicolon] at read
    by_cases blank : Text.isBlank c = true
    · obtain ⟨-, -, quote⟩ := blank_other blank
      have alone : Text.allBlank [c] = true := by simp [Text.allBlank, blank]
      rw [if_neg quote, outside_fresh alone] at read
      refine .blank blank ?_
      simpa [feed] using fresh line statements read
    · have visible : Text.isBlank c = false := by simpa using blank
      have underway : Underway line line [c] rest := underway_first visible hyphens
      rw [startLine, ite_self] at read
      by_cases quote : c = mark
      · subst quote
        rw [if_pos rfl] at read
        exact inLiteral line line line [] [] statements underway .nil List.not_mem_nil read
      · rw [if_neg quote] at read
        have settled : Settled [c] [] :=
          ⟨by simp, by simpa using visible, .plain ⟨feed, semicolon, quote⟩ .nil, by simp [IsGap]⟩
        exact begun line line [c] [] statements underway settled read

/-- What is read is a division of the text. The induction is on the text, through all the places
that the reader can be in. -/
theorem read_divides (text : List Char) :
    FreshDivides text ∧ BegunDivides text ∧ LiteralDivides text ∧ CommentDivides text := by
  induction text with
  | nil =>
      have fresh : FreshDivides [] := by
        intro line statements read
        cases read
        exact .nothing line
      refine ⟨fresh, ?_, ?_, ?_⟩
      · intro start line body gap statements underway settled read
        exact ended_divides fresh (by simp) underway settled read
      · intro opened start line prior inner statements _ _ _ read
        cases read
      · intro line statements read
        cases read
        exact ⟨[], [], rfl, List.not_mem_nil, by simp, .nothing line⟩
  | cons c rest ih =>
      obtain ⟨fresh, begun, inLiteral, inComment⟩ := ih
      have now : FreshDivides (c :: rest) := fresh_divides fresh begun inLiteral inComment
      exact ⟨now, begun_divides now begun inLiteral, literal_divides begun inLiteral,
        comment_divides fresh inComment⟩

end Sound

section Unique

variable {line : Nat} {text gap rest : List Char} {statements : List Statement}

theorem sound_underway (sound : Sound text)
    (separate : ∀ c ∈ rest.head?, c ≠ '-') : Underway line (line + text.count '\n') text rest where
  filled := sound.filled
  starts := sound.starts
  opens := by
    obtain ⟨c, more, rfl⟩ := List.exists_cons_of_ne_nil sound.filled
    have opens := sound.opens
    rw [hyphens_iff, not_and] at opens
    rw [List.cons_append, hyphens_iff]
    rintro ⟨hyphen, second⟩
    cases more with
    | nil => exact separate '-' second rfl
    | cons d more => exact opens hyphen second
  lines := rfl

/-- A statement is collected whole. -/
theorem outside_sound (sound : Sound text) (separate : ∀ c ∈ rest.head?, c ≠ '-') (line : Nat) :
    outside line line [] (text ++ rest) =
      outside (line + text.count '\n') line text.reverse rest := by
  have underway : Underway line (line + text.count '\n') text rest :=
    sound_underway sound separate
  obtain ⟨filled, starts, ends, opens, inside⟩ := sound
  cases inside with
  | nil => exact absurd rfl filled
  | @plain c more first stretch =>
      obtain ⟨feed, semicolon, quote⟩ := first
      have visible : Text.isBlank c = false := starts c rfl
      have begun : Text.allBlank [c] = false := by simp [Text.allBlank, visible]
      have hyphens := underway.opens
      rw [List.cons_append, hyphens_iff] at hyphens
      rw [List.cons_append, outside, if_neg (fun all => hyphens ⟨all.1, all.2.1⟩), if_neg feed,
        if_neg semicolon, if_neg quote, startLine, ite_self, outside_stretch begun stretch,
        List.count_cons_of_ne feed]
      simp
  | @literal inner more free stretch =>
      have begun : Text.allBlank (mark :: (inner.reverse ++ [mark])) = false := by
        have visible : Text.isBlank mark = false := by decide
        simp [Text.allBlank, visible]
      have whole : mark :: inner ++ mark :: more ++ rest =
          mark :: (inner ++ mark :: (more ++ rest)) := by simp
      have lines : (mark :: inner ++ mark :: more).count '\n' =
          inner.count '\n' + more.count '\n' := by
        simp [mark]
      rw [whole, outside, if_neg (fun all => absurd all.1 (by decide)), if_neg (by decide),
        if_neg (by decide), if_pos rfl, startLine, ite_self, literal_closed free,
        outside_stretch begun stretch, lines, ← Nat.add_assoc]
      simp

theorem head?_gap {p : Char → Prop} (inGap : ∀ c ∈ gap, p c) (after : ∀ c ∈ rest.head?, p c) :
    ∀ c ∈ (gap ++ rest).head?, p c := by
  cases gap with
  | nil => exact after
  | cons d gap =>
      rintro c first
      obtain rfl : d = c := by simpa using first
      exact inGap d List.mem_cons_self

/-- Every division of a text is the one that is read off it. -/
theorem divided_read (divided : Divided line text statements) :
    outside line line [] text = .ok statements := by
  induction divided with
  | nothing line => rfl
  | @blank line c rest statements blank more ih =>
      by_cases feed : c = '\n'
      · rw [outside_restart (.inl feed), ih]
      · obtain ⟨hyphen, semicolon, quote⟩ := blank_other blank
        have alone : Text.allBlank [c] = true := by simp [Text.allBlank, blank]
        rw [outside, if_neg (fun all => hyphen all.1), if_neg feed, if_neg semicolon,
          if_neg quote, outside_fresh alone, ← ih]
        simp [feed]
  | @semicolon line rest statements more ih =>
      rw [outside_restart (.inr rfl)]
      exact ih
  | @comment line body rest statements free ends more ih =>
      have hyphen : '\n' ∉ '-' :: body := by simp [free]
      rw [List.cons_append, outside, if_pos ⟨rfl, rfl, rfl⟩, comment_body hyphen ends, ih]
  | @statement line text gap rest statements sound isGap ends more ih =>
      have separate : ∀ c ∈ (gap ++ rest).head?, c ≠ '-' := by
        refine head?_gap (fun c member => (blank_other (isGap c member).1).1) ?_
        rintro c first rfl
        exact absurd (ends '-' first) (by decide)
      have underway : Underway line (line + text.count '\n') text (gap ++ rest) :=
        sound_underway sound separate
      have begun : Text.allBlank text.reverse = false := underway.begun
      have settled : Settled text gap := ⟨sound.filled, sound.ends, sound.inside, isGap⟩
      rw [List.append_assoc, outside_sound sound separate,
        outside_stretch begun (isGap_stretch isGap), isGap_count isGap, Nat.add_zero,
        ← List.reverse_append, outside_ended ends, ih, close_settled settled sound]
      rfl

/-- Reading a text from where a statement could start is dividing it. -/
theorem outside_iff_divided :
    outside line line [] text = .ok statements ↔ Divided line text statements :=
  ⟨(read_divides text).1 line statements, divided_read⟩

end Unique

end Statement

end Rollout
