import Mathlib.Logic.Function.Basic
import Rollout.Sqlite.Basic

/-!
A name between quotes is one token, and it ends where the name does. So the statements that the
program writes are read as the words that they were meant to have, whatever the names in them are.
A call for which no statement can be written is refused, and a row goes where its statement says.
-/

namespace Rollout.Sqlite

namespace Token

variable {rest after : List Char} {words : List (Meaning × String)}

theorem untilQuote_cons_of_ne {quote c : Char} (other : c ≠ quote) (text : List Char) :
    untilQuote quote (c :: text) =
      (untilQuote quote text).map fun (value, written, rest) =>
        (c :: value, c :: written, rest) := by
  cases text with
  | nil => simp [untilQuote, other]
  | cons next rest => simp [untilQuote, other]

theorem untilQuote_cons_self {quote : Char} (ends : rest.head? ≠ some quote) :
    untilQuote quote (quote :: rest) = some ([], [quote], rest) := by
  cases rest with
  | nil => simp [untilQuote]
  | cons next rest =>
      have other : next ≠ quote := by simpa using ends
      simp [untilQuote, other]

/-- Two quotes stand for one, and so the name goes on at every quote that belongs to it. -/
theorem untilQuote_escape (name : List Char) (ends : rest.head? ≠ some '"') :
    untilQuote '"' (name.flatMap Identifier.escape ++ '"' :: rest) =
      some (name, name.flatMap Identifier.escape ++ ['"'], rest) := by
  induction name with
  | nil => simpa using untilQuote_cons_self ends
  | cons c name ih =>
      by_cases isQuote : c = '"'
      · subst isQuote
        simp [Identifier.escape, untilQuote, ih]
      · simp [Identifier.escape, isQuote, untilQuote_cons_of_ne isQuote, ih]

theorem next_quoted (name : String) (ends : rest.head? ≠ some '"') :
    next '"' (name.toList.flatMap Identifier.escape ++ '"' :: rest) =
      (some (.name name, (Identifier.quoted name).toList), rest) := by
  have isNoSpace : isSpace '"' = false := by decide
  simp [next, isNoSpace, one, quotedBy, untilQuote_escape name.toList ends, Identifier.quoted]

theorem length_dropWhile_le (test : Char → Bool) (text : List Char) :
    (text.dropWhile test).length ≤ text.length :=
  (List.dropWhile_sublist test).length_le

theorem length_untilQuote {quote : Char} {text value written rest : List Char}
    (found : untilQuote quote text = some (value, written, rest)) : rest.length ≤ text.length := by
  fun_induction untilQuote quote text generalizing value written rest with
  | case1 => simp at found
  | case2 => simp at found; simp [found]
  | case3 => simp at found
  | case4 _ ih =>
    simp only [Option.map_eq_some_iff, Prod.exists, Prod.mk.injEq] at found
    obtain ⟨_, _, _, read, _, _, rfl⟩ := found
    have := ih read
    simp; omega
  | case5 => simp at found; simp [← found.2.2]
  | case6 _ _ _ _ ih =>
    simp only [Option.map_eq_some_iff, Prod.exists, Prod.mk.injEq] at found
    obtain ⟨_, _, _, read, _, _, rfl⟩ := found
    have := ih read
    simp at this ⊢; omega

theorem length_quotedBy (quote : Char) (meaning : String → Meaning) (text : List Char) :
    (quotedBy quote meaning text).2.2.length ≤ text.length := by
  unfold quotedBy
  split
  · exact length_untilQuote ‹_›
  · simp

theorem length_exponent (text : List Char) : (exponent text).2.length ≤ text.length := by
  unfold exponent
  grind [length_dropWhile_le]

theorem length_decimal {c : Char} {rest : List Char} (starts : c.isDigit = true ∨ c = '.') :
    (numeral.decimal (c :: rest)).2.length ≤ rest.length := by
  have whole := length_dropWhile_le Char.isDigit rest
  unfold numeral.decimal
  obtain digit | rfl := starts
  · have skips : (c :: rest).dropWhile Char.isDigit = rest.dropWhile Char.isDigit := by
      simp [digit]
    simp only [skips]
    grind [length_dropWhile_le, length_exponent]
  · have stays : ('.' :: rest).dropWhile Char.isDigit = '.' :: rest := rfl
    simp only [stays]
    grind [length_dropWhile_le, length_exponent]

theorem length_numeral {c : Char} {rest : List Char} (starts : c.isDigit = true ∨ c = '.') :
    (numeral (c :: rest)).2.2.length ≤ rest.length := by
  unfold numeral
  grind [length_dropWhile_le, length_decimal]

theorem length_byteString (mark : Char) (text : List Char) :
    (byteString mark text).2.2.length ≤ text.length := by
  unfold byteString
  grind [length_dropWhile_le]

theorem length_one (c : Char) (rest : List Char) : (one c rest).2.2.length ≤ rest.length := by
  unfold one
  split
  · exact length_quotedBy ..
  split
  · exact length_quotedBy ..
  split
  · exact length_quotedBy ..
  split
  · exact length_numeral (.inl ‹_›)
  split
  · have shorter := length_dropWhile_le (· ≠ ']') rest
    split <;> simp_all
    omega
  · split
    · exact length_numeral (.inr rfl)
    · exact Nat.le_refl _
  · exact Nat.le_succ_of_le (length_byteString ..)
  · exact Nat.le_succ_of_le (length_byteString ..)
  · exact length_dropWhile_le ..
  · split
    · exact length_dropWhile_le ..
    · split <;> exact Nat.le_refl _

theorem length_afterComment (text : List Char) : (afterComment text).length ≤ text.length := by
  fun_induction afterComment text <;> simp <;> omega

/-- A turn takes the first character away at least. -/
theorem length_next (c : Char) (rest : List Char) : (next c rest).2.length ≤ rest.length := by
  unfold next
  grind [length_dropWhile_le, length_afterComment, length_one]

/-- A dot before a quote is no part of a number. -/
theorem next_dot_quoted (name : String) :
    next '.' ((Identifier.quoted name).toList ++ rest) =
      (some (.symbol '.', ['.']), (Identifier.quoted name).toList ++ rest) := by
  rw [Identifier.quoted, String.toList_ofList]
  rfl

/-- What a token is, and what is written for it, wherever it stands. -/
def word (token : Token) : Meaning × String := (token.meaning, token.written)

/-- Is the text read as the words, wherever it starts? -/
def Reads (text : List Char) (words : List (Meaning × String)) : Prop :=
  ∀ turns offset, text.length ≤ turns → (scan turns offset text).map word = words

theorem Reads.nil : Reads [] [] := by
  intro turns offset _
  cases turns <;> rfl

theorem Reads.token {c : Char} {meaning : Meaning} {written : List Char}
    (found : next c rest = (some (meaning, written), after)) (reads : Reads after words) :
    Reads (c :: rest) ((meaning, String.ofList written) :: words) := by
  intro turns offset enough
  obtain _ | turns := turns
  · simp at enough
  -- the turns that are left suffice, since the token has taken a character at least
  · have shorter := length_next c rest
    simp only [found] at shorter
    simp only [scan, found, List.map_cons, word, List.cons.injEq, true_and]
    exact reads _ _ (by simp at enough; omega)

theorem Reads.space (reads : Reads rest words) : Reads (' ' :: rest) words := by
  intro turns offset enough
  obtain _ | turns := turns
  · simp at enough
  · have isBlank : next ' ' rest = (none, rest) := rfl
    simp only [scan, isBlank]
    exact reads _ _ (by simpa using enough)

/-- A token with a space behind it. -/
theorem Reads.spaced {c : Char} {meaning : Meaning} {written : List Char}
    (found : next c rest = (some (meaning, written), ' ' :: after)) (reads : Reads after words) :
    Reads (c :: rest) ((meaning, String.ofList written) :: words) :=
  .token found (.space reads)

theorem ofText_of_reads {text : String} (reads : Reads text.toList words) :
    (ofText text).map word = words :=
  reads _ _ (Nat.le_refl _)

theorem exists_of_words {tokens : List Token} {word : Meaning × String}
    {words : List (Meaning × String)} (shown : tokens.map Token.word = word :: words) :
    ∃ token rest, tokens = token :: rest ∧ token.word = word ∧ rest.map Token.word = words := by
  cases tokens with
  | nil => cases shown
  | cons token rest =>
      obtain ⟨first, others⟩ := List.cons.inj shown
      exact ⟨token, rest, rfl, first, others⟩

/-- Does what follows belong neither to a name nor to what stands between quotes? -/
def Parts (rest : List Char) : Prop :=
  ∀ c ∈ rest.head?, c ≠ '"' ∧ continuesName c = false

theorem parts_nil : Parts [] := by simp [Parts]

theorem parts_cons {c : Char} (parts : c ≠ '"' ∧ continuesName c = false) :
    Parts (c :: rest) := by
  simpa [Parts] using parts

/-- Is the text one word, with anything that parts it from what follows? -/
def IsWord (text : List Char) (word : Meaning × String) : Prop :=
  ∀ rest words, Parts rest → Reads rest words → Reads (text ++ rest) (word :: words)

theorem isWord_quoted (name : String) :
    IsWord (Identifier.quoted name).toList (.name name, Identifier.quoted name) := by
  intro rest words parts reads
  have ends : rest.head? ≠ some '"' := fun isQuote => (parts _ isQuote).1 rfl
  have found := next_quoted name ends
  have read := Reads.token found reads
  simpa [Identifier.quoted] using read

theorem isWord_variable : IsWord "?".toList (.variable, "?") := by
  intro rest words parts reads
  have found : next '?' rest =
      (some (.variable, '?' :: rest.takeWhile Char.isDigit), rest.dropWhile Char.isDigit) := rfl
  have noDigit : ∀ c ∈ rest.head?, c.isDigit = false := by
    intro c isFirst
    have continues := (parts c isFirst).2
    simp only [continuesName, Bool.or_eq_false_iff] at continues
    exact continues.1.2
  have none : rest.takeWhile Char.isDigit = [] := by cases rest <;> simp_all
  have all : rest.dropWhile Char.isDigit = rest := by cases rest <;> simp_all
  rw [none, all] at found
  exact .token found reads

def comma : Meaning × String := (.symbol ',', ",")

theorem Reads.commaList {α : Type} {text : α → String} {word : α → Meaning × String}
    (items : List α) (isWord : ∀ item ∈ items, IsWord (text item).toList (word item))
    (parts : Parts rest) (reads : Reads rest words) :
    Reads ((", ".intercalate (items.map text)).toList ++ rest)
      ((items.map word).intersperse comma ++ words) := by
  induction items with
  | nil => simpa using reads
  | cons item items ih =>
      rw [List.forall_mem_cons] at isWord
      cases items with
      | nil => simpa using isWord.1 _ _ parts reads
      | cons next items =>
          have further := Reads.token (c := ',') rfl (.space (ih isWord.2))
          have whole := isWord.1 _ _ (parts_cons (by decide)) further
          simpa [List.intersperse, comma] using whole

end Token

theorem Identifier.quoted_injective : Function.Injective Identifier.quoted := by
  -- what is written so can be read back
  intro first second same
  have ends : ([] : List Char).head? ≠ some '"' := by simp
  have read (name : String) := Token.next_quoted name ends
  have texts := congrArg String.toList same
  simp only [Identifier.quoted, String.toList_ofList, List.cons.injEq, true_and] at texts
  have both := (read first).symm.trans (texts ▸ read second)
  simp only [Prod.mk.injEq, Option.some.injEq, Meaning.name.injEq] at both
  exact both.1.1

/-- The name that stands there between quotes. -/
def Meaning.named? : Meaning → Option String
  | .name value => some value
  | _ => none

namespace Identifier

theorem isValid_iff {name : String} :
    isValid name = true ↔ ¬(name = "" ∨ '\x00' ∈ name.toList) := by
  simp [isValid]

theorem quote_eq_ok_iff {name text : String} :
    quote name = .ok text ↔ isValid name = true ∧ text = quoted name := by
  unfold quote
  split <;> rename_i valid <;> simp [valid, @eq_comm _ text]

theorem exists_quote_iff {name : String} :
    (∃ text, quote name = .ok text) ↔ isValid name = true := by
  simp [quote_eq_ok_iff]

theorem mapM_quote (names : List String) :
    names.mapM quote =
      match names.find? fun name => !isValid name with
      | some name => .error ⟨name⟩
      | none => .ok (names.map quoted) := by
  induction names with
  | nil => rfl
  | cons name rest ih =>
      rw [List.mapM_cons, ih, quote]
      cases valid : isValid name with
      | false => simp [valid]; rfl
      | true =>
          simp only [valid, List.find?_cons]
          cases rest.find? fun name => !isValid name <;> rfl

end Identifier

namespace Written

open Identifier Token

variable {schema table : String} {columns : Option (List String)} {width : Nat}

def nameWord (name : String) : Meaning × String := (.name name, quoted name)

/-- The words of the text, each with what is written for it. -/
def words : Written → List (Meaning × String)
  | attach schema =>
      [(.bare, "ATTACH"), (.bare, "DATABASE"), (.variable, "?1"), (.bare, "AS"), nameWord schema]
  | items schema =>
      [(.bare, "SELECT"), (.bare, "name"), comma, (.bare, "type"), (.bare, "FROM"),
        nameWord schema, (.symbol '.', "."), (.bare, "sqlite_master"), (.bare, "WHERE"),
        (.bare, "type"), (.bare, "IN"), (.symbol '(', "("), (.string "table", "'table'"), comma,
        (.string "view", "'view'"), (.symbol ')', ")"), (.bare, "AND"), (.bare, "name"),
        (.bare, "NOT"), (.bare, "LIKE"), (.string "sqlite_%", "'sqlite_%'"), (.bare, "ORDER"),
        (.bare, "BY"), (.bare, "name")]
  | references schema table =>
      [(.bare, "PRAGMA"), nameWord schema, (.symbol '.', "."), (.bare, "foreign_key_list"),
        (.symbol '(', "("), nameWord table, (.symbol ')', ")")]
  | insertion schema table columns width =>
      [(.bare, "INSERT"), (.bare, "INTO"), nameWord schema, (.symbol '.', "."), nameWord table] ++
        columnWords columns ++ [(.bare, "VALUES"), (.symbol '(', "(")] ++
        (List.replicate width (.variable, "?")).intersperse comma ++ [(.symbol ')', ")")]
where
  columnWords : Option (List String) → List (Meaning × String)
    | some columns =>
        (.symbol '(', "(") :: (columns.map nameWord).intersperse comma ++ [(.symbol ')', ")")]
    | none => []

/-- Where names cannot be written, the first of them is to blame. -/
theorem text_of_invalid {written : Written} {name : String}
    (invalid : written.names.find? (fun name => !isValid name) = some name) :
    written.text = .error ⟨name⟩ := by
  -- names are quoted in their order, and the first fault ends it
  have refused : written.text =
      match written.names.find? fun name => !isValid name with
      | some name => .error ⟨name⟩
      | none => written.text := by
    cases written with
    | attach schema =>
        simp only [text, names, quote, List.find?_cons]
        cases isValid schema <;> rfl
    | items schema =>
        simp only [text, names, quote, List.find?_cons]
        cases isValid schema <;> rfl
    | references schema table =>
        simp only [text, names, quote, List.find?_cons]
        cases isValid schema <;> cases isValid table <;> rfl
    | insertion schema table columns width =>
        simp only [text, names, quote, mapM_quote, List.find?_cons]
        cases isValid schema <;> cases isValid table <;> try rfl
        cases columns with
        | none => rfl
        | some columns =>
            simp only [Option.getD_some]
            cases columns.find? fun name => !isValid name <;> rfl
  rw [refused, invalid]

theorem reads_attach (schema : String) :
    Reads ("ATTACH DATABASE ?1 AS " ++ quoted schema).toList (attach schema).words := by
  have last := isWord_quoted schema [] [] parts_nil .nil
  rw [List.append_nil] at last
  simp only [String.toList_append, String.reduceToList, List.cons_append, List.nil_append]
  exact .spaced rfl <| .spaced rfl <| .spaced rfl <| .spaced rfl last

theorem reads_items (schema : String) :
    Reads ("SELECT name, type FROM " ++ quoted schema ++ ".sqlite_master " ++
      "WHERE type IN ('table', 'view') AND name NOT LIKE 'sqlite_%' ORDER BY name").toList
      (items schema).words := by
  simp only [String.toList_append, String.reduceToList, List.cons_append, List.nil_append,
    List.append_assoc]
  refine .spaced rfl <| .token rfl <| .token rfl <| .space <| .spaced rfl <| .spaced rfl ?_
  refine isWord_quoted schema _ _ (parts_cons (by decide)) ?_
  refine .token rfl <| .spaced rfl ?_
  refine .spaced rfl <| .spaced rfl <| .spaced rfl <| .token rfl <| .token rfl <| .token rfl <|
    .space <| .token rfl <| .token rfl <| .space ?_
  exact .spaced rfl <| .spaced rfl <| .spaced rfl <| .spaced rfl <| .spaced rfl <| .spaced rfl <|
    .spaced rfl <| .token rfl .nil

theorem reads_references (schema table : String) :
    Reads ("PRAGMA " ++ quoted schema ++ ".foreign_key_list(" ++ quoted table ++ ")").toList
      (references schema table).words := by
  simp only [String.toList_append, String.reduceToList, List.cons_append, List.nil_append,
    List.append_assoc]
  refine .spaced rfl ?_
  refine isWord_quoted schema _ _ (parts_cons (by decide)) ?_
  refine .token rfl <| .token rfl <| .token rfl ?_
  refine isWord_quoted table _ _ (parts_cons (by decide)) ?_
  exact .token rfl .nil

/-- The end of a statement that stores rows, with a mark for every value. -/
theorem reads_placeholders (width : Nat) :
    Reads ((placeholders width).toList ++ [')'])
      ((List.replicate width (.variable, "?")).intersperse comma ++ [(.symbol ')', ")")]) := by
  have marks := Reads.commaList (List.replicate width ()) (fun _ _ => isWord_variable)
    (parts_cons (by decide)) (.token (c := ')') rfl .nil)
  simpa [placeholders] using marks

theorem reads_insertion (schema table : String) (columns : List String) (width : Nat) :
    Reads ("INSERT INTO " ++ quoted schema ++ "." ++ quoted table ++ " (" ++
      ", ".intercalate (columns.map quoted) ++ ") VALUES (" ++ placeholders width ++ ")").toList
      (insertion schema table (some columns) width).words := by
  have marks := reads_placeholders width
  simp only [String.toList_append, String.reduceToList, List.cons_append, List.nil_append,
    List.append_assoc, words, words.columnWords]
  refine .spaced rfl <| .spaced rfl ?_
  refine isWord_quoted schema _ _ (parts_cons (by decide)) <| .token (next_dot_quoted table) ?_
  refine isWord_quoted table _ _ (parts_cons (by decide)) <| .space <| .token rfl ?_
  refine .commaList columns (fun column _ => isWord_quoted column) (parts_cons (by decide)) ?_
  exact .token rfl <| .space <| .spaced rfl <| .token rfl marks

theorem reads_row (schema table : String) (width : Nat) :
    Reads ("INSERT INTO " ++ quoted schema ++ "." ++ quoted table ++ " VALUES (" ++
      placeholders width ++ ")").toList (insertion schema table none width).words := by
  have marks := reads_placeholders width
  simp only [String.toList_append, String.reduceToList, List.cons_append, List.nil_append,
    List.append_assoc, words, words.columnWords]
  refine .spaced rfl <| .spaced rfl ?_
  refine isWord_quoted schema _ _ (parts_cons (by decide)) <| .token (next_dot_quoted table) ?_
  refine isWord_quoted table _ _ (parts_cons (by decide)) <| .space <| .spaced rfl ?_
  exact .token rfl marks

theorem text_of_valid {written : Written}
    (valid : ∀ name ∈ written.names, isValid name = true) :
    ∃ text, written.text = .ok text ∧ Reads text.toList written.words := by
  cases written with
  | attach schema =>
      refine ⟨_, ?_, reads_attach schema⟩
      simp only [text, quote, valid schema (by simp [names])]
      rfl
  | items schema =>
      refine ⟨_, ?_, reads_items schema⟩
      simp only [text, quote, valid schema (by simp [names])]
      rfl
  | references schema table =>
      refine ⟨_, ?_, reads_references schema table⟩
      simp only [text, quote, valid schema (by simp [names]), valid table (by simp [names])]
      rfl
  | insertion schema table columns width =>
      have schemaValid := valid schema (by simp [names])
      have tableValid := valid table (by simp [names])
      cases columns with
      | none =>
          refine ⟨_, ?_, reads_row schema table width⟩
          simp only [text, quote, schemaValid, tableValid]
          rfl
      | some columns =>
          have columnsValid : columns.find? (fun name => !isValid name) = none := by
            simpa [names] using fun column isColumn => valid column (by simp [names, isColumn])
          refine ⟨_, ?_, reads_insertion schema table columns width⟩
          simp only [text, quote, schemaValid, tableValid, mapM_quote, columnsValid]
          rfl

theorem text_eq_error_iff {written : Written} {invalid : InvalidIdentifier} :
    written.text = .error invalid ↔
      written.names.find? (fun name => !isValid name) = some invalid.name := by
  cases found : written.names.find? fun name => !isValid name with
  | none =>
      have valid : ∀ name ∈ written.names, isValid name = true := by simpa using found
      obtain ⟨text, isText, -⟩ := text_of_valid valid
      simp [isText]
  | some name =>
      rw [text_of_invalid found]
      cases invalid
      simp

theorem text_eq_ok {written : Written} {text : String} (isText : written.text = .ok text) :
    (∀ name ∈ written.names, isValid name = true) ∧ Reads text.toList written.words := by
  have valid : ∀ name ∈ written.names, isValid name = true := by
    cases found : written.names.find? fun name => !isValid name with
    | none => simpa using found
    | some name => simp [text_of_invalid found] at isText
  obtain ⟨same, isSame, reads⟩ := text_of_valid valid
  obtain rfl : text = same := by simpa [isText] using isSame
  exact ⟨valid, reads⟩

/-- Commas name nothing. -/
theorem named_commaList (words : List (Meaning × String)) :
    (words.intersperse comma).filterMap (·.1.named?) = words.filterMap (·.1.named?) := by
  induction words with
  | nil => rfl
  | cons word words ih =>
      cases words with
      | nil => rfl
      | cons next words =>
          have skips : (comma :: (next :: words).intersperse comma).filterMap (·.1.named?) =
              (next :: words).filterMap (·.1.named?) :=
            (List.filterMap_cons_none rfl).trans ih
          rw [List.intersperse_cons_cons, List.filterMap_cons, skips]
          rfl

theorem named_names (names : List String) :
    (names.map nameWord).filterMap (·.1.named?) = names := by
  rw [List.filterMap_map]
  exact List.filterMap_some

/-- The names of a statement are the names that stand in its text between quotes. -/
theorem named_words (written : Written) : written.words.filterMap (·.1.named?) = written.names := by
  cases written with
  | attach schema => rfl
  | items schema => rfl
  | references schema table => rfl
  | insertion schema table columns width =>
      have marks : ((List.replicate width (Meaning.variable, "?")).intersperse comma).filterMap
          (·.1.named?) = [] := by
        rw [named_commaList, List.filterMap_replicate_of_none rfl]
      simp only [words, List.filterMap_append, marks, List.append_nil]
      cases columns with
      | none => rfl
      | some columns =>
          have listed := named_commaList (columns.map nameWord)
          rw [named_names] at listed
          simp only [words.columnWords, List.cons_append, List.filterMap_cons,
            List.filterMap_append, listed]
          simp [names, nameWord, Meaning.named?]

end Written

namespace Parser

open Written Token

variable {tokens : List Token} {words : List (Meaning × String)}

theorem keyword_word (word : String) {written : String} (same : Identifier.same written word = true)
    (shown : tokens.map Token.word = (.bare, written) :: words) :
    ∃ rest, keyword word tokens = .ok ((), rest) ∧ rest.map Token.word = words := by
  obtain ⟨⟨meaning, _, offset⟩, rest, rfl, first, others⟩ := exists_of_words shown
  obtain ⟨rfl, rfl⟩ := Prod.mk.inj first
  exact ⟨rest, by simp [keyword, Token.isKeyword, same], others⟩

theorem symbol_word {c : Char} {written : String}
    (shown : tokens.map Token.word = (.symbol c, written) :: words) :
    ∃ rest, symbol c tokens = .ok ((), rest) ∧ rest.map Token.word = words := by
  obtain ⟨⟨meaning, _, offset⟩, rest, rfl, first, others⟩ := exists_of_words shown
  obtain ⟨rfl, rfl⟩ := Prod.mk.inj first
  exact ⟨rest, by simp [symbol, Token.isSymbol], others⟩

theorem named_word {name : String} (shown : tokens.map Token.word = nameWord name :: words) :
    ∃ found rest, named tokens = .ok (found, rest) ∧ found.value = name ∧
      rest.map Token.word = words := by
  obtain ⟨⟨meaning, written, offset⟩, rest, rfl, first, others⟩ := exists_of_words shown
  obtain ⟨rfl, rfl⟩ := Prod.mk.inj first
  exact ⟨⟨_, name⟩, rest, rfl, rfl, others⟩

theorem startsWith_word {c : Char} {word : Meaning × String}
    (shown : tokens.map Token.word = word :: words) :
    startsWith (Token.isSymbol c) tokens = (word.1 == .symbol c) := by
  obtain ⟨token, rest, rfl, rfl, others⟩ := exists_of_words shown
  rfl

theorem objectName_words {schema table : String}
    (shown : tokens.map Token.word =
      nameWord schema :: (.symbol '.', ".") :: nameWord table :: words) :
    ∃ object rest, objectName tokens = .ok (object, rest) ∧ object.schemaName = schema ∧
      object.name.value = table ∧ rest.map Token.word = words := by
  obtain ⟨first, behind, readSchema, isSchema, dotted⟩ := named_word shown
  obtain ⟨dot, left, rfl, isDot, further⟩ := exists_of_words dotted
  obtain ⟨second, rest, readTable, isTable, others⟩ := named_word further
  have starts := startsWith_word (c := '.') dotted
  refine ⟨{ schema := some first, name := second }, rest, ?_, isSchema, isTable, others⟩
  simp [objectName, readSchema, readTable, starts, bind, Except.bind, pure, Except.pure]

/-- Names with commas between them are read up to what is no comma. -/
theorem separated_words {names : List String} (filled : names ≠ []) {turns : Nat}
    (enough : tokens.length ≤ turns) (ends : ∀ word ∈ words.head?, word.1 ≠ .symbol ',')
    (shown : tokens.map Token.word = (names.map nameWord).intersperse comma ++ words) :
    ∃ found rest, separated named turns tokens = .ok (found, rest) ∧
      found.map (·.value) = names ∧ rest.map Token.word = words := by
  induction names generalizing tokens turns with
  | nil => exact absurd rfl filled
  | cons name names ih =>
      obtain _ | turns := turns
      · obtain rfl := List.length_eq_zero_iff.mp (Nat.le_zero.mp enough)
        cases names <;> cases shown
      cases names with
      | nil =>
          obtain ⟨found, rest, read, isName, others⟩ : ∃ found rest,
            named tokens = .ok (found, rest) ∧ found.value = name ∧
              rest.map Token.word = words := named_word shown
          have stops : startsWith (Token.isSymbol ',') rest = false := by
            cases rest with
            | nil => rfl
            | cons next rest => exact beq_false_of_ne (ends next.word (by rw [← others]; rfl))
          refine ⟨[found], rest, ?_, congrArg ([·]) isName, others⟩
          simp [separated, read, stops, bind, Except.bind, pure, Except.pure]
      | cons second names =>
          obtain ⟨found, behind, read, isName, others⟩ := named_word shown
          have goes := startsWith_word (c := ',') others
          obtain ⟨sign, left, rfl, -, further⟩ := exists_of_words others
          have shorter : left.length ≤ turns := by
            have same := congrArg List.length shown
            have less := congrArg List.length further
            simp at same less
            omega
          obtain ⟨more, rest, reads, areNames, others⟩ := ih (List.cons_ne_nil _ _) shorter further
          refine ⟨found :: more, rest, ?_, by rw [List.map_cons, isName, areNames], others⟩
          simp [separated, read, goes, reads, comma, bind, Except.bind, pure, Except.pure]

/-- The columns of a row, if there are any. -/
theorem names_words {columns : Option (List String)} (filled : columns ≠ some [])
    (shown : tokens.map Token.word =
      Written.words.columnWords columns ++ (.bare, "VALUES") :: words) :
    ∃ rest, insert.names tokens = .ok (columns, rest) ∧
      rest.map Token.word = (.bare, "VALUES") :: words := by
  cases columns with
  | none =>
      have none := startsWith_word (c := '(') shown
      exact ⟨tokens, by simp [insert.names, none, pure, Except.pure], shown⟩
  | some columns =>
      rw [words.columnWords, List.append_assoc] at shown
      have opens := startsWith_word (c := '(') shown
      obtain ⟨sign, left, rfl, -, further⟩ := exists_of_words shown
      obtain ⟨found, behind, reads, rfl, others⟩ := separated_words
        (fun none => filled (congrArg some none)) (Nat.le_refl _) (by simp) further
      obtain ⟨rest, closes, others⟩ := symbol_word others
      refine ⟨rest, ?_, others⟩
      simp [insert.names, opens, commaList, reads, closes, bind, Except.bind, pure, Except.pure]

end Parser

namespace Written

variable {schema table text : String} {columns : Option (List String)} {width : Nat}

/-- The database's own reader finds the table and the columns that a row is stored for. -/
theorem insertion_read (isText : (insertion schema table columns width).text = .ok text)
    (filled : columns ≠ some []) :
    ∃ target object behind rest,
      Parser.keywords ["insert", "into"] (Token.ofText text) = .ok ((), target) ∧
        Parser.objectName target = .ok (object, behind) ∧ object.schemaName = schema ∧
          object.name.value = table ∧ Parser.insert.names behind = .ok (columns, rest) := by
  have shown : (Token.ofText text).map Token.word = _ :=
    Token.ofText_of_reads (text_eq_ok isText).2
  simp only [words, List.append_assoc, List.cons_append, List.nil_append] at shown
  obtain ⟨first, inserts, shown⟩ := Parser.keyword_word "insert" (by decide) shown
  obtain ⟨target, into, shown⟩ := Parser.keyword_word "into" (by decide) shown
  obtain ⟨object, behind, found, inSchema, isTable, shown⟩ := Parser.objectName_words shown
  obtain ⟨rest, read, -⟩ := Parser.names_words filled shown
  refine ⟨target, object, behind, rest, ?_, found, inSchema, isTable, read⟩
  simp [Parser.keywords, inserts, into, bind, Except.bind]

end Written

theorem columnsOf_eq (header : List String) :
    columnsOf header =
      match (header.map Text.trimmed).find? fun name => !Identifier.isValid name with
      | some name => .error ⟨name⟩
      | none => .ok (header.map Text.trimmed) := by
  induction header with
  | nil => rfl
  | cons field rest ih =>
      unfold columnsOf at ih ⊢
      rw [List.mapM_cons, ih]
      cases valid : Identifier.isValid (Text.trimmed field) with
      | false => simp [valid]; rfl
      | true =>
          simp only [valid, List.map_cons, List.find?_cons]
          cases (rest.map Text.trimmed).find? fun name => !Identifier.isValid name <;> rfl

namespace State

variable {state : State} {schema table : String} {invalid : InvalidIdentifier}

/-- Nothing is done where the statement for it cannot be written. -/
theorem attachSchema_refused (isOpen : state.connection.isOpen = true)
    (refused : (Written.attach schema).text = .error invalid) :
    state.attachSchema schema = (.error invalid.asDriver, state) := by
  obtain ⟨wrong, rfl⟩ : Identifier.isValid schema = false ∧ schema = invalid.name := by
    simpa [Written.names] using Written.text_eq_error_iff.mp refused
  simp [attachSchema, isOpen, wrong]

theorem schemaItems_refused (isOpen : state.connection.isOpen = true) {kind : Option ItemKind}
    (held : kind = none ∨ kind = some .table ∨ kind = some .view)
    (refused : (Written.items schema).text = .error invalid) :
    state.schemaItems schema kind = (.error invalid.asDriver, state) := by
  obtain ⟨wrong, rfl⟩ : Identifier.isValid schema = false ∧ schema = invalid.name := by
    simpa [Written.names] using Written.text_eq_error_iff.mp refused
  rcases held with rfl | rfl | rfl <;> simp [schemaItems, isOpen, wrong]

theorem loadCsv_refused (isOpen : state.connection.isOpen = true) {width : Nat}
    (refused : (Written.insertion schema table none width).text = .error invalid)
    (path : String) (content : Content) (options : CsvOptions) :
    state.loadCsv path (.ok content) schema table options = (.error invalid.asDriver, state) := by
  have blamed := Written.text_eq_error_iff.mp refused
  simp only [Written.names, Option.getD_none] at blamed
  simp [loadCsv, isOpen, blamed]

/-- A header with a name that cannot be written is refused, though the table could be written. -/
theorem loadWithHeader_refused {header : Csv.Record} {fields : List String} {text : String}
    (read : header.texts 0 header.fields.length = .ok fields) {width : Nat}
    (isTarget : (Written.insertion schema table none width).text = .ok text)
    (refused : (Written.insertion schema table (some (fields.map Text.trimmed)) width).text =
      .error invalid) (path : String) (records : List Csv.Record) :
    state.loadWithHeader path (ObjectName.ofNames schema table) (header :: records) =
      (.error invalid.asDriver, state) := by
  have valid := (Written.text_eq_ok isTarget).1
  have blamed := Written.text_eq_error_iff.mp refused
  simp only [Written.names, Option.getD_some, List.find?_cons, Bool.not_true,
    valid schema (by simp [Written.names]), valid table (by simp [Written.names])] at blamed
  have isRefused : columnsOf fields = .error invalid := by rw [columnsOf_eq, blamed]
  simp [loadWithHeader, read, isRefused]

end State

/-- A name between quotes is that name and nothing else, wherever it stands. A name cannot be
written if it is empty or has a NUL; if it can, then its quoted form is one token before all that
does not begin with a quote, and no other name is written so. The statements that the program
writes exist exactly where all their names can be written, and every one is read as the words that
it was meant to have, its names among them in their order. -/
theorem quoted_names_inescapable :
    (∀ name, (∃ invalid, Identifier.quote name = .error invalid) ↔
      name = "" ∨ '\x00' ∈ name.toList) ∧
    (∀ name text, Identifier.quote name = .ok text →
      (∀ rest : List Char, rest.head? ≠ some '"' →
        ∃ inner, text.toList = '"' :: inner ∧
          Token.next '"' (inner ++ rest) = (some (.name name, text.toList), rest)) ∧
      ∀ other, Identifier.quote other = .ok text → other = name) ∧
    ∀ written : Written,
      ((∃ text, written.text = .ok text) ↔
        ∀ name ∈ written.names, ∃ text, Identifier.quote name = .ok text) ∧
      ∀ text, written.text = .ok text →
        (Token.ofText text).map Token.word = written.words ∧
        (Token.ofText text).filterMap (·.meaning.named?) = written.names := by
  refine ⟨fun name => ?_, fun name text isQuoted => ⟨fun rest ends => ?_, ?_⟩, fun written =>
    ⟨⟨?_, ?_⟩, fun text isText => ?_⟩⟩
  · cases valid : Identifier.isValid name with
    | false =>
        have unwritable := Identifier.isValid_iff.not.mp (valid ▸ Bool.false_ne_true)
        simpa [Identifier.quote, valid] using not_not.mp unwritable
    | true => simpa [Identifier.quote, valid] using Identifier.isValid_iff.mp valid
  · obtain ⟨-, rfl⟩ := Identifier.quote_eq_ok_iff.mp isQuoted
    refine ⟨name.toList.flatMap Identifier.escape ++ ['"'], by simp [Identifier.quoted], ?_⟩
    simpa using Token.next_quoted name ends
  · intro other isOther
    have same := (Identifier.quote_eq_ok_iff.mp isQuoted).2
    have isSame := (Identifier.quote_eq_ok_iff.mp isOther).2
    exact Identifier.quoted_injective (isSame.symm.trans same)
  · rintro ⟨text, isText⟩ name among
    exact Identifier.exists_quote_iff.mpr ((Written.text_eq_ok isText).1 name among)
  · intro quotable
    obtain ⟨text, isText, -⟩ := Written.text_of_valid fun name among =>
      Identifier.exists_quote_iff.mp (quotable name among)
    exact ⟨text, isText⟩
  · have read := Token.ofText_of_reads (Written.text_eq_ok isText).2
    refine ⟨read, ?_⟩
    rw [← Written.named_words, ← read, List.filterMap_map]
    rfl

/-- Names that are nothing but quotes. -/
theorem quoted_names_inescapable_quotes :
    (Token.ofText "INSERT INTO \"main\".\"\"\"\" (\"id\", \"\"\"\"\"\") VALUES (?, ?)").filterMap
      (·.meaning.named?) = ["main", "\"", "id", "\"\""] :=
  let insertion := Written.insertion "main" "\"" (some ["id", "\"\""]) 2
  ((quoted_names_inescapable.2.2 insertion).2 _ (by rfl)).2

end Rollout.Sqlite
