import Rollout.Text.Blank

/-!
Scripts: the words, operators and redirections of a line of commands. Quotes keep characters from
being special, and variables stand for values.
-/

namespace Rollout.Shell

inductive Piece where
  | letters (text : List Char)
  /-- A variable; the value of a bare one is cut into words at blanks. -/
  | variable (name : String) (bare : Bool)
deriving DecidableEq, Repr

inductive Stream where
  | output
  | errors
  | nowhere
deriving DecidableEq, Repr

inductive Token where
  | word (pieces : List Piece)
  /-- One stream goes where another one goes. -/
  | redirect (stream target : Stream)
  | andThen
  | orElse
  /-- The end of a command, and the line that the next one stands on. -/
  | stop (line : Nat)
deriving DecidableEq, Repr

def isNameStart (c : Char) : Bool := c.isAlpha || c == '_'

def isNameRest (c : Char) : Bool := c.isAlphanum || c == '_'

/-- The variable at the start of a text that follows a dollar, and how many characters it takes
up. -/
def variableAt (text : List Char) : Option (String × Nat) :=
  match text with
  | '\x7b' :: rest =>
      let name := rest.takeWhile isNameRest
      if name ≠ [] ∧ (rest.drop name.length).head? = some '\x7d' then
        some (String.ofList name, name.length + 2)
      else none
  | c :: rest =>
      if isNameStart c then
        let name := c :: rest.takeWhile isNameRest
        some (String.ofList name, name.length)
      else if c = '$' ∨ c = '?' ∨ c = '#' then some (String.ofList [c], 1)
      else none
  | [] => none

def pushLetter (c : Char) : List Piece → List Piece
  | .letters text :: earlier => .letters (text ++ [c]) :: earlier
  | earlier => .letters [c] :: earlier

/-- Where reading stands. The word that is read is kept last piece first. -/
inductive Mode where
  | bare
  | single
  | double
  | comment
deriving DecidableEq, Repr

structure Reader where
  mode : Mode := .bare
  word : Option (List Piece) := none
  line : Nat := 1
  /-- How many characters have been taken up already. -/
  skip : Nat := 0
  /-- The tokens so far, last first. -/
  tokens : List Token := []

namespace Reader

def endWord (reader : Reader) : Reader :=
  match reader.word with
  | none => reader
  | some pieces => { reader with word := none, tokens := .word pieces.reverse :: reader.tokens }

def push (reader : Reader) (token : Token) : Reader :=
  { reader with tokens := token :: reader.tokens }

def letter (reader : Reader) (c : Char) : Reader :=
  { reader with word := some (pushLetter c (reader.word.getD [])) }

def piece (reader : Reader) (piece : Piece) : Reader :=
  { reader with word := some (piece :: reader.word.getD []) }

/-- The redirection at the start of a text, and how many characters it takes up. -/
def redirect? (text : List Char) : Option (Token × Nat) :=
  match text with
  | '>' :: '&' :: '2' :: _ => some (.redirect .output .errors, 3)
  | '>' :: '&' :: '1' :: _ => some (.redirect .output .output, 3)
  | '1' :: '>' :: '&' :: '2' :: _ => some (.redirect .output .errors, 4)
  | '2' :: '>' :: '&' :: '1' :: _ => some (.redirect .errors .output, 4)
  | _ =>
      let nowhere := "/dev/null".toList
      let after (text : List Char) : List Char := text.dropWhile (· == ' ')
      let taken (rest : List Char) : Nat := text.length - rest.length
      match text with
      | '2' :: '>' :: rest =>
          if nowhere.isPrefixOf (after rest) then
            some (.redirect .errors .nowhere, taken (after rest) + nowhere.length)
          else none
      | '>' :: rest =>
          if nowhere.isPrefixOf (after rest) then
            some (.redirect .output .nowhere, taken (after rest) + nowhere.length)
          else none
      | _ => none

def readBare (reader : Reader) (c : Char) (rest : List Char) : Reader :=
  if c = '\n' then
    { reader.endWord with line := reader.line + 1 }.push (.stop (reader.line + 1))
  else if c = ' ' ∨ c = '\t' then reader.endWord
  else if c = '#' ∧ reader.word = none then { reader with mode := .comment }
  else if c = ';' then reader.endWord.push (.stop reader.line)
  else if c = '\'' then { reader with mode := .single, word := some (reader.word.getD []) }
  else if c = '"' then { reader with mode := .double, word := some (reader.word.getD []) }
  else if c = '&' ∧ rest.head? = some '&' then { reader.endWord.push .andThen with skip := 1 }
  else if c = '|' ∧ rest.head? = some '|' then { reader.endWord.push .orElse with skip := 1 }
  else if c = '\\' then
    match rest with
    | '\n' :: _ => { reader with skip := 1, line := reader.line + 1 }
    | next :: _ => { reader.letter next with skip := 1 }
    | [] => reader.letter c
  else if c = '$' then
    match variableAt rest with
    | some (name, taken) => { reader.piece (.variable name true) with skip := taken }
    | none => reader.letter c
  else
    let mayRedirect := c = '>' ∨ reader.word = none
    match if mayRedirect then redirect? (c :: rest) else none with
    | some (token, taken) => { reader.endWord.push token with skip := taken - 1 }
    | none => reader.letter c

def readDouble (reader : Reader) (c : Char) (rest : List Char) : Reader :=
  if c = '"' then { reader with mode := .bare }
  else if c = '\n' then { reader.letter c with line := reader.line + 1 }
  else if c = '\\' then
    match rest with
    | '\n' :: _ => { reader with skip := 1, line := reader.line + 1 }
    | next :: _ =>
        if next = '"' ∨ next = '\\' ∨ next = '$' ∨ next = '\x60' then
          { reader.letter next with skip := 1 }
        else reader.letter c
    | [] => reader.letter c
  else if c = '$' then
    match variableAt rest with
    | some (name, taken) => { reader.piece (.variable name false) with skip := taken }
    | none => reader.letter c
  else reader.letter c

def read (reader : Reader) : List Char → Reader
  | [] => reader.endWord
  | c :: rest =>
      if reader.skip ≠ 0 then read { reader with skip := reader.skip - 1 } rest
      else
        let next := match reader.mode with
          | .bare => reader.readBare c rest
          | .double => reader.readDouble c rest
          | .single =>
              if c = '\'' then { reader with mode := .bare }
              else if c = '\n' then { reader.letter c with line := reader.line + 1 }
              else reader.letter c
          | .comment =>
              if c = '\n' then { reader with mode := .bare }.readBare c rest else reader
        read next rest

end Reader

/-- A command with what stands before it. -/
structure Simple where
  /-- Runs it only after success, or only after failure. -/
  only : Option Bool := none
  line : Nat
  words : List (List Piece) := []
  redirects : List (Stream × Stream) := []
deriving Repr

/-- The commands that tokens make up, given the one that is read. -/
def commands (current : Simple) : List Token → List Simple
  | [] => [current]
  | .word pieces :: rest => commands { current with words := current.words ++ [pieces] } rest
  | .redirect stream target :: rest =>
      commands { current with redirects := current.redirects ++ [(stream, target)] } rest
  | .andThen :: rest => current :: commands { only := some true, line := current.line } rest
  | .orElse :: rest => current :: commands { only := some false, line := current.line } rest
  | .stop line :: rest => current :: commands { line } rest

/-- The commands of a script; a quote that stays open spoils all that follows on its line. -/
def read (script : String) : Except Nat (List Simple) :=
  let reader := Reader.read {} script.toList
  if reader.mode = .single ∨ reader.mode = .double then .error reader.line
  else .ok ((commands { line := 1 } reader.tokens.reverse).filter fun command =>
    !command.words.isEmpty || !command.redirects.isEmpty)

end Rollout.Shell
