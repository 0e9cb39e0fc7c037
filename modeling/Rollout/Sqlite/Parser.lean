import Rollout.Sqlite.Statement

/-!
Reading statements. What is no statement is refused at the first token that cannot go on.
-/

namespace Rollout.Sqlite.Parser

/-- Reads something at the start of the tokens; what is left comes with it. -/
abbrev Reader (α : Type) := List Token → Except Fault (α × List Token)

def refusal : List Token → Fault
  | [] => { text := "incomplete input" }
  | token :: _ =>
      let text := match token.meaning with
        | .unknown => s!"unrecognized token: \"{token.written}\""
        | _ => s!"near \"{token.written}\": syntax error"
      { text, offset := some token.offset }

/-- Words that cannot be names unless they are quoted. -/
def reserved : List String :=
  ["add", "all", "alter", "and", "as", "autoincrement", "between", "case", "check", "collate",
    "commit", "constraint", "create", "default", "deferrable", "delete", "distinct", "drop",
    "else", "escape", "exists", "foreign", "from", "group", "having", "in", "index", "insert",
    "into", "is", "isnull", "join", "limit", "not", "nothing", "notnull", "null", "on", "or",
    "order", "primary", "references", "returning", "select", "set", "table", "then", "to",
    "transaction", "union", "unique", "update", "using", "values", "when", "where"]

def keyword (word : String) : Reader Unit
  | token :: rest =>
      if token.isKeyword word then .ok ((), rest) else .error (refusal (token :: rest))
  | [] => .error (refusal [])

def keywords : List String → Reader Unit
  | [], tokens => .ok ((), tokens)
  | word :: more, tokens => do
      let ((), rest) ← keyword word tokens
      keywords more rest

def symbol (c : Char) : Reader Unit
  | token :: rest =>
      if token.isSymbol c then .ok ((), rest) else .error (refusal (token :: rest))
  | [] => .error (refusal [])

def startsWith (test : Token → Bool) : List Token → Bool
  | token :: _ => test token
  | [] => false

def optional (words : List String) (tokens : List Token) : Except Fault (Bool × List Token) :=
  match words with
  | [] => .ok (false, tokens)
  | word :: _ =>
      if startsWith (Token.isKeyword word) tokens then
        (keywords words tokens).map fun ((), rest) => (true, rest)
      else .ok (false, tokens)

def nameOf? (token : Token) : Option String :=
  match token.meaning with
  | .bare =>
      if reserved.any (Identifier.same token.written) then none else some token.written
  | .name value => some value
  | .string value => some value
  | _ => none

def named : Reader Named
  | token :: rest =>
      match nameOf? token with
      | some value => .ok (⟨token, value⟩, rest)
      | none => .error (refusal (token :: rest))
  | [] => .error (refusal [])

def objectName : Reader ObjectName := fun tokens => do
  let (first, rest) ← named tokens
  if startsWith (Token.isSymbol '.') rest then
    let (second, rest) ← named (rest.drop 1)
    return ({ schema := some first, name := second }, rest)
  else return ({ name := first }, rest)

def enclosedName : Reader Named := fun tokens => do
  let ((), rest) ← symbol '(' tokens
  let (name, rest) ← named rest
  let ((), rest) ← symbol ')' rest
  return (name, rest)

/-- Reads one thing or more with commas between them. There are at most as many as there are
tokens. -/
def separated {α : Type} (one : Reader α) : Nat → Reader (List α)
  | 0, tokens => .error (refusal tokens)
  | turns + 1, tokens => do
      let (first, rest) ← one tokens
      if startsWith (Token.isSymbol ',') rest then
        let (more, rest) ← separated one turns (rest.drop 1)
        return (first :: more, rest)
      else return ([first], rest)

def commaList {α : Type} (one : Reader α) : Reader (List α) := fun tokens =>
  separated one tokens.length tokens

/-- What makes the column of whole numbers that is the key one that numbers the rows. -/
def numberType : String := "integer"

/-- A column: its name, its type, and what holds for it. -/
def column : Reader Column := fun tokens => do
  let (name, rest) ← named tokens
  let isWord (token : Token) : Bool := token.meaning == .bare && (nameOf? token).isSome
  let words := rest.takeWhile isWord
  let (isKey, rest) ← optional ["primary", "key"] (rest.dropWhile isWord)
  let (isRequired, rest) ← optional ["not", "null"] rest
  let isNumber := isKey && words.map (·.written.map Char.toLower) == [numberType]
  return ({ name := name.value, isNumber, isKey, isRequired }, rest)

def reference : Reader Reference := fun tokens => do
  let ((), rest) ← keywords ["foreign", "key"] tokens
  let (column, rest) ← enclosedName rest
  let ((), rest) ← keyword "references" rest
  let (parent, rest) ← named rest
  if startsWith (Token.isSymbol '(') rest then
    let (parentColumn, rest) ← enclosedName rest
    return (⟨column.value, parent.value, some parentColumn.value⟩, rest)
  else return (⟨column.value, parent.value, none⟩, rest)

/-- Columns and then references, up to the closing parenthesis. -/
def columnsFrom : Nat → List Column → Reader TableBody
  | 0, _, tokens => .error (refusal tokens)
  | turns + 1, columns, tokens => do
      if !columns.isEmpty && startsWith (Token.isKeyword "foreign") tokens then
        let (references, rest) ← commaList reference tokens
        let ((), rest) ← symbol ')' rest
        return (⟨columns, references⟩, rest)
      else
        let (next, rest) ← column tokens
        let columns := columns ++ [next]
        if startsWith (Token.isSymbol ',') rest then columnsFrom turns columns (rest.drop 1)
        else
          let ((), rest) ← symbol ')' rest
          return (⟨columns, []⟩, rest)

def tableBody : Reader TableBody := fun tokens => do
  let ((), rest) ← symbol '(' tokens
  columnsFrom tokens.length [] rest

def statementRest (tokens : List Token) : List Token :=
  tokens.dropWhile fun token => !token.isSymbol ';'

def createTable : Reader Statement := fun tokens => do
  let (ifMissing, rest) ← optional ["if", "not", "exists"] tokens
  let (object, rest) ← objectName rest
  match tableBody rest with
  | .ok (body, rest) => return (.createTable ifMissing object (.ok body), rest)
  | .error fault => return (.createTable ifMissing object (.error fault), statementRest rest)

/-- An index has a table; this dialect makes none. -/
def createIndex : Reader Statement := fun tokens => do
  let (_, rest) ← objectName tokens
  let ((), rest) ← keyword "on" rest
  throw (refusal rest)

def dropTable : Reader Statement := fun tokens => do
  let (object, rest) ← objectName tokens
  return (.dropTable object, rest)

def dropView : Reader Statement := fun tokens => do
  let (object, rest) ← objectName tokens
  return (.dropView object, rest)

def value : Reader Value
  | token :: rest =>
      match token.meaning with
      | .number => .ok (.ofNumber false token.written.toList, rest)
      | .string value => .ok (.text value, rest)
      | .bytes digits => .ok (.bytes (Value.bytesOf digits), rest)
      | .symbol '-' =>
          match rest with
          | number :: rest =>
              if number.meaning = .number then .ok (.ofNumber true number.written.toList, rest)
              else .error (refusal (number :: rest))
          | [] => .error (refusal [])
      | .symbol '+' =>
          match rest with
          | number :: rest =>
              if number.meaning = .number then .ok (.ofNumber false number.written.toList, rest)
              else .error (refusal (number :: rest))
          | [] => .error (refusal [])
      | _ =>
          if token.isKeyword "null" then .ok (.null, rest) else .error (refusal (token :: rest))
  | [] => .error (refusal [])

def result : Reader Result
  | token :: rest =>
      if token.isSymbol '*' then .ok (.everything, rest)
      else if token.isKeyword "count" then do
        let ((), rest) ← symbol '(' rest
        let ((), rest) ← symbol '*' rest
        let ((), rest) ← symbol ')' rest
        return (.count, rest)
      else match nameOf? token, token.meaning with
        | some _, .string text => .ok (.literal (.text text), rest)
        | some name, _ => .ok (.column ⟨token, name⟩, rest)
        | none, _ => (value (token :: rest)).map fun (value, rest) => (.literal value, rest)
  | [] => .error (refusal [])

/-- A result, perhaps with a name for it. -/
def namedResult : Reader Result := fun tokens => do
  let (shown, rest) ← result tokens
  let (isNamed, rest) ← optional ["as"] rest
  if isNamed then
    let (_, rest) ← named rest
    return (shown, rest)
  else return (shown, rest)

def select : Reader Statement := fun tokens => do
  let (results, rest) ← commaList namedResult tokens
  let (isFrom, rest) ← optional ["from"] rest
  if isFrom then
    let (source, rest) ← objectName rest
    let (isOrdered, rest) ← optional ["order", "by"] rest
    if isOrdered then
      let (order, rest) ← named rest
      return (.select results (some (source, some order)), rest)
    else return (.select results (some (source, none)), rest)
  else return (.select results none, rest)

def createView : Reader Statement := fun tokens => do
  let (object, rest) ← objectName tokens
  let ((), rest) ← keywords ["as", "select"] rest
  let (results, rest) ← commaList namedResult rest
  return (.createView object results, rest)

def insert : Reader Statement := fun tokens => do
  let ((), rest) ← keyword "into" tokens
  let (object, rest) ← objectName rest
  let (columns, rest) ← names rest
  let ((), rest) ← keyword "values" rest
  let (rows, rest) ← commaList row rest
  return (.insert object columns rows, rest)
where
  names : Reader (Option (List String)) := fun tokens => do
    if startsWith (Token.isSymbol '(') tokens then
      let (names, rest) ← commaList named (tokens.drop 1)
      let ((), rest) ← symbol ')' rest
      return (some (names.map (·.value)), rest)
    else return (none, tokens)
  row : Reader (List Value) := fun tokens => do
    let ((), rest) ← symbol '(' tokens
    let (values, rest) ← commaList value rest
    let ((), rest) ← symbol ')' rest
    return (values, rest)

/-- The rest of a statement by its first words. -/
def readers : List (List String × Reader Statement) :=
  [(["create", "table"], createTable), (["create", "view"], createView),
    (["create", "index"], createIndex), (["drop", "table"], dropTable),
    (["drop", "view"], dropView), (["select"], select), (["insert"], insert),
    (["begin", "transaction"], plain .begin), (["begin"], plain .begin),
    (["commit", "transaction"], plain .commit), (["commit"], plain .commit),
    (["end", "transaction"], plain .commit), (["end"], plain .commit),
    (["rollback", "transaction"], plain .rollback), (["rollback"], plain .rollback)]
where
  plain (statement : Statement) : Reader Statement := fun tokens => .ok (statement, tokens)

def agreement : List String → List Token → Nat
  | word :: more, token :: rest => if token.isKeyword word then agreement more rest + 1 else 0
  | _, _ => 0

/-- A statement, without what ends it. Where no statement begins with the first tokens, the first
of them at fault is the one behind the longest beginning of a statement. -/
def statement : Reader Statement := fun tokens =>
  match readers.find? fun (words, _) => agreement words tokens = words.length with
  | some (words, reader) => reader (tokens.drop words.length)
  | none =>
      let agreed := (readers.map fun (words, _) => agreement words tokens).foldl max 0
      .error (refusal (tokens.drop agreed))

/-- The next statement of a text and the tokens behind it; none if there is no further one. -/
def next : List Token → Except Fault (Option (Statement × List Token))
  | [] => .ok none
  | token :: rest =>
      if token.isSymbol ';' then next rest
      else do
        let (found, rest) ← statement (token :: rest)
        match rest with
        | [] => return some (found, [])
        | ending :: rest =>
            if ending.isSymbol ';' then return some (found, rest)
            else throw (refusal (ending :: rest))

end Rollout.Sqlite.Parser
