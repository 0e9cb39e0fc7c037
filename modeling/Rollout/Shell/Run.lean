import Rollout.Shell.Basic
import Rollout.Shell.Escape
import Rollout.Shell.Script

/-!
Running scripts of a few commands that print, succeed, fail, stop or are stopped.
-/

namespace Rollout.Shell

open Escape (bytes)

def textBytes (text : List Char) : List UInt8 := text.flatMap bytes

/-- What has been printed, and how it stands. -/
structure State where
  output : List UInt8 := []
  errors : List UInt8 := []
  status : Nat := 0
  /-- How the script ended, once it has. -/
  ended : Option ExitStatus := none

structure Setting where
  /-- The name it reports errors under. -/
  name : String
  environment : List (String × String)

namespace State

def print (state : State) (stream : Stream) (printed : List UInt8) : State :=
  match stream with
  | .output => { state with output := state.output ++ printed }
  | .errors => { state with errors := state.errors ++ printed }
  | .nowhere => state

end State

def value (setting : Setting) (state : State) (name : String) : List Char :=
  match name with
  | "?" => (toString state.status).toList
  | "#" => ['0']
  | _ => ((setting.environment.lookup name).getD "").toList

/-- The process that runs the script, of which only itself knows the number. -/
def self : List Char := ['$', '$']

def cutBlanks (current : List Char) : List Char → List (List Char)
  | [] => [current]
  | c :: rest =>
      if c = ' ' ∨ c = '\t' ∨ c = '\n' then current :: cutBlanks [] rest
      else cutBlanks (current ++ [c]) rest

/-- The words that pieces make up, given the one so far; none if nothing but empty bare values
was found. -/
def assemble (setting : Setting) (state : State) (current : Option (List Char)) :
    List Piece → List (List Char)
  | [] => current.toList
  | .letters text :: rest => assemble setting state (some (current.getD [] ++ text)) rest
  | .variable "$" _ :: rest => assemble setting state (some (current.getD [] ++ self)) rest
  | .variable name false :: rest =>
      assemble setting state (some (current.getD [] ++ value setting state name)) rest
  | .variable name true :: rest =>
      match (cutBlanks [] (value setting state name)).filter (· ≠ []) with
      | [] => assemble setting state current rest
      | first :: more =>
          let words := (current.getD [] ++ first) :: more
          words.dropLast ++ assemble setting state words.getLast? rest

/-- The words of a command. A word that is only quotes is empty. -/
def wordsOf (setting : Setting) (state : State) (command : Simple) : List (List Char) :=
  command.words.flatMap fun pieces =>
    if pieces = [] then [[]] else assemble setting state none pieces

def route (stream : Stream) (redirects : List (Stream × Stream)) : Stream :=
  let routes := redirects.foldl
    (fun (routes : Stream × Stream) (redirect : Stream × Stream) =>
      let target := match redirect.2 with
        | .output => routes.1
        | .errors => routes.2
        | .nowhere => .nowhere
      match redirect.1 with
      | .output => (target, routes.2)
      | .errors => (routes.1, target)
      | .nowhere => routes) (Stream.output, Stream.errors)
  match stream with
  | .output => routes.1
  | .errors => routes.2
  | .nowhere => .nowhere

def echo (arguments : List (List Char)) : List UInt8 :=
  let joined (arguments : List (List Char)) : List UInt8 :=
    Escape.resolve false 0 ([' '].intercalate arguments)
  match arguments with
  | ['-', 'n'] :: rest => joined rest
  | _ => joined arguments ++ [10]

/-- Goes through a format once: what it prints, and the arguments that are left. -/
def format : Nat → List Char → List (List Char) → List UInt8 × List (List Char)
  | _, [], arguments => ([], arguments)
  | skip + 1, _ :: rest, arguments => format skip rest arguments
  | 0, c :: rest, arguments =>
      let go (printed : List UInt8) (taken : Nat) (arguments : List (List Char)) :
          List UInt8 × List (List Char) :=
        let (more, left) := format taken rest arguments
        (printed ++ more, left)
      if c = '\\' then
        let (printed, taken) := Escape.afterBackslash true rest
        go printed taken arguments
      else if c = '%' then
        let argument := arguments.headD []
        match rest with
        | '%' :: _ => go [37] 1 arguments
        | 's' :: _ => go (textBytes argument) 1 arguments.tail
        | 'd' :: _ | 'i' :: _ | 'u' :: _ =>
            go (textBytes (if argument = [] then ['0'] else argument)) 1 arguments.tail
        | 'c' :: _ => go (textBytes (argument.take 1)) 1 arguments.tail
        | 'b' :: _ => go (Escape.resolve false 0 argument) 1 arguments.tail
        | _ => go [37] 0 arguments
      else go (bytes c) 0 arguments

/-- Goes through a format as often as there are arguments for it, up to a number of times. -/
def formatAll (pattern : List Char) : Nat → List (List Char) → List UInt8
  | 0, _ => []
  | rounds + 1, arguments =>
      let (printed, left) := format 0 pattern arguments
      if left = [] ∨ left.length = arguments.length then printed
      else printed ++ formatAll pattern rounds left

def printf (arguments : List (List Char)) : List UInt8 :=
  match arguments with
  | [] => []
  | pattern :: values => formatAll pattern (values.length + 1) values

def readNumber (text : List Char) : Option Nat :=
  if text ≠ [] ∧ text.all Char.isDigit then
    some (text.foldl (fun value digit => value * 10 + (digit.toNat - '0'.toNat)) 0)
  else none

/-- The signal that an option of `kill` names. -/
def signal? (option : List Char) : Option Nat :=
  match option with
  | '-' :: name =>
      match readNumber name with
      | some number => some number
      | none =>
          let name := String.ofList name
          (ExitStatus.signalNames.find? fun (_, known) =>
            known == name || known == "SIG" ++ name).map (·.1)
  | _ => none

def complain (setting : Setting) (line : Nat) (text : String) (status : Nat) (stream : Stream)
    (state : State) : State :=
  let report := s!"{setting.name}: {line}: {text}\n"
  { state.print stream (textBytes report.toList) with status }

/-- Runs a command that was found by its first word. -/
def runWords (setting : Setting) (command : Simple) (words : List (List Char))
    (state : State) : State :=
  let printed := route .output command.redirects
  let reported := route .errors command.redirects
  match words with
  | [] => { state with status := 0 }
  | name :: arguments =>
      match String.ofList name with
      | "echo" => { state.print printed (echo arguments) with status := 0 }
      | "printf" => { state.print printed (printf arguments) with status := 0 }
      | "true" | ":" => { state with status := 0 }
      | "false" => { state with status := 1 }
      | "exit" =>
          match arguments with
          | [] => { state with ended := some (.exited state.status) }
          | code :: _ =>
              match readNumber code with
              | some code => { state with ended := some (.exited (code % 256)) }
              | none =>
                  let text := s!"exit: Illegal number: {String.ofList code}"
                  let state := complain setting command.line text 2 reported state
                  { state with ended := some (.exited 2) }
      | "kill" =>
          match arguments with
          | [process] =>
              if process = self then { state with ended := some (.killed 15) }
              else { state with status := 1 }
          | [option, process] =>
              match signal? option with
              | some number =>
                  if process = self ∧ number ≠ 0 then
                    { state with ended := some (.killed number) }
                  else { state with status := if process = self then 0 else 1 }
              | none => { state with status := 1 }
          | _ => { state with status := 1 }
      | unknown => complain setting command.line s!"{unknown}: not found" 127 reported state

/-- Runs commands in order, as far as the script goes. -/
def runCommands (setting : Setting) : List Simple → State → State
  | [], state => state
  | command :: rest, state =>
      if state.ended.isSome then state
      else
        let wanted := match command.only with
          | none => true
          | some success => success == (state.status == 0)
        if wanted then
          runCommands setting rest (runWords setting command (wordsOf setting state command) state)
        else runCommands setting rest state

def outcome (state : State) : Outcome :=
  .ended (state.ended.getD (.exited state.status)) (Text.Utf8.decodeLossy state.output)
    (Text.Utf8.decodeLossy state.errors)

def runScript (name : String) (environment : List (String × String)) (script : String) : Outcome :=
  match read script with
  | .error line =>
      let state := complain ⟨name, environment⟩ line "Syntax error: Unterminated quoted string" 2
        .errors {}
      outcome state
  | .ok commands => outcome (runCommands ⟨name, environment⟩ commands {})

def programName (program : String) : String :=
  if ["/bin/", "/usr/bin/"].any fun directory => directory.toList.isPrefixOf program.toList then
    String.ofList ((program.toList.reverse.takeWhile (· != '/')).reverse)
  else program

def execute (invocation : Invocation) : Outcome :=
  let arguments := invocation.arguments
  let printed (output : List UInt8) : Outcome :=
    .ended (.exited 0) (Text.Utf8.decodeLossy output) ""
  match programName invocation.program with
  | "sh" =>
      match arguments, invocation.script with
      | "-c" :: script :: _, _ => runScript "sh" invocation.environment script
      | ["-c"], _ => .ended (.exited 2) "" "sh: 0: -c requires an argument\n"
      | path :: _, some content => runScript path invocation.environment content.shown
      | path :: _, none => .ended (.exited 2) "" s!"sh: 0: cannot open {path}: No such file\n"
      | [], _ => .ended (.exited 0) "" ""
  | "echo" =>
      match arguments with
      | "-n" :: rest => printed (textBytes (" ".intercalate rest).toList)
      | _ => printed (textBytes (" ".intercalate arguments ++ "\n").toList)
  | "printf" => printed (printf (arguments.map String.toList))
  | "true" => .ended (.exited 0) "" ""
  | "false" => .ended (.exited 1) "" ""
  | _ => .notStarted .noSuchFile

end Rollout.Shell
