import Rollout.Table
import Rollout.Text.Pieces

/-!
The arguments of the program. They are read from left to right; the program's name for a command
ends the options of the program itself and begins those of the command.
-/

namespace Rollout.CommandLine

/-- What the program can be told to do, and the program itself. -/
inductive Topic where
  | program
  | run
  | plan
  | grammar
  | help
deriving DecidableEq, Repr

def Topic.ofName? : String → Option Topic
  | "run" => some .run
  | "plan" => some .plan
  | "grammar" => some .grammar
  | "help" => some .help
  | _ => none

inductive Key where
  | verbose
  | quiet
  | help
  | version
  | source
  | database
  | config
  | file
  | dryRun
  | noAutoTransaction
  | format
  | json
deriving DecidableEq, Repr

namespace Key

def name : Key → String
  | verbose => "verbose"
  | quiet => "quiet"
  | help => "help"
  | version => "version"
  | source => "source"
  | database => "database"
  | config => "config"
  | file => "file"
  | dryRun => "dry-run"
  | noAutoTransaction => "no-auto-transaction"
  | format => "format"
  | json => "json"

/-- The letter behind one dash, if there is one. -/
def letter? : Key → Option Char
  | verbose => some 'v'
  | quiet => some 'q'
  | help => some 'h'
  | version => some 'V'
  | file => some 'f'
  | _ => none

def takesValue : Key → Bool
  | source | database | config | file | format => true
  | _ => false

def accepts (value : String) : Key → Bool
  | config | file => value != ""
  | format => (Table.Format.ofName? value).isSome
  | _ => true

end Key

namespace Topic

/-- The options that are known where the topic is, in the order in which help shows them. -/
def keys : Topic → List Key
  | program => [.verbose, .quiet, .help, .version]
  | run => [.source, .verbose, .database, .quiet, .config, .file, .dryRun, .noAutoTransaction,
      .format, .help]
  | plan => [.source, .verbose, .database, .quiet, .config, .file, .noAutoTransaction, .json,
      .help]
  | grammar => [.verbose, .quiet, .help]
  | help => []

end Topic

/-- Why arguments do not ask for anything to be run. -/
inductive Stop where
  /-- They are not understood. -/
  | usage
  | version
  | help (topic : Topic)
deriving DecidableEq, Repr

/-- Options with their values; those without a value have an empty one. -/
abbrev Given := List (Key × String)

structure Reading where
  topic : Topic := .program
  /-- The options of the program, once a command has been named. -/
  program : Given := []
  /-- The options of the topic. -/
  given : Given := []
  /-- The commands to run, the last first. -/
  commands : List String := []
  /-- The option whose value comes next. -/
  awaiting : Option Key := none
  /-- Are there only commands from here on? -/
  isOpen : Bool := true
  /-- What help is wanted about. -/
  subject : Topic := .program
deriving DecidableEq, Repr

namespace Reading

/-- Takes an option with its value. Each may be given once. -/
def give (key : Key) (value : String) (reading : Reading) : Except Stop Reading :=
  match key with
  | .help => .error (.help reading.topic)
  | .version => .error .version
  | _ =>
      if (reading.given.lookup key).isSome || !key.accepts value then .error .usage
      else .ok { reading with given := (key, value) :: reading.given, awaiting := none }

/-- Takes an option with two dashes; its value may stand behind an equals sign. -/
def long (text : List Char) (reading : Reading) : Except Stop Reading :=
  let (name, value) : List Char × Option String := match Text.cutFirst '=' text with
    | some (name, value) => (name, some (String.ofList value))
    | none => (text, none)
  match reading.topic.keys.find? fun key => key.name == String.ofList name, value with
  | none, _ => .error .usage
  | some key, none =>
      if key.takesValue then .ok { reading with awaiting := some key } else reading.give key ""
  | some key, some value => if key.takesValue then reading.give key value else .error .usage

/-- Takes options of one letter each. Behind one that takes a value stands the value. -/
def short : List Char → Reading → Except Stop Reading
  | [], reading => .ok reading
  | letter :: rest, reading =>
      match reading.topic.keys.find? fun key => key.letter? == some letter with
      | none => .error .usage
      | some key =>
          if key.takesValue then
            match rest with
            | [] => .ok { reading with awaiting := some key }
            | '=' :: value => reading.give key (String.ofList value)
            | value => reading.give key (String.ofList value)
          else
            match reading.give key "" with
            | .error stop => .error stop
            | .ok reading => short rest reading

/-- Takes a word that is no option. -/
def word (text : String) (reading : Reading) : Except Stop Reading :=
  match reading.topic, Topic.ofName? text with
  | .run, _ | .plan, _ => .ok { reading with commands := text :: reading.commands }
  | .program, some topic =>
      if reading.isOpen then .ok { reading with topic, program := reading.given, given := [] }
      else .error .usage
  | .help, some subject =>
      if reading.subject = .program then .ok { reading with subject } else .error .usage
  | _, _ => .error .usage

/-- Takes one argument. A lone dash is a word. -/
def take (reading : Reading) (argument : String) : Except Stop Reading :=
  if !reading.isOpen || reading.topic = .help then reading.word argument
  else
    match argument.toList, reading.awaiting with
    | '-' :: _ :: _, some _ => .error .usage
    | _, some key => reading.give key argument
    | ['-', '-'], none => .ok { reading with isOpen := false }
    | '-' :: '-' :: text, none => reading.long text
    | '-' :: letter :: rest, none => reading.short (letter :: rest)
    | _, none => reading.word argument

def conflicts (reading : Reading) : Bool :=
  let both (given : Given) : Bool :=
    (given.lookup .verbose).isSome && (given.lookup .quiet).isSome
  both reading.program || both reading.given ||
    ((reading.given.lookup .file).isSome && !reading.commands.isEmpty)

end Reading

inductive Input where
  | arguments (commands : List String)
  | file (path : String)
  | standardInput
deriving DecidableEq, Repr

structure Target where
  source : Option String := none
  database : Option String := none
  config : Option String := none
  noAutoTransaction : Bool := false
  input : Input := .standardInput
deriving DecidableEq, Repr

inductive Action where
  | run (target : Target) (dryRun : Bool) (format : Option Table.Format)
  | plan (target : Target) (json : Bool)
  | grammar
deriving DecidableEq, Repr

structure Request where
  action : Action
  verbose : Bool
  quiet : Bool
deriving DecidableEq, Repr

namespace Reading

def input (reading : Reading) : Input :=
  match reading.given.lookup .file, reading.commands with
  | some "-", _ => .standardInput
  | some path, _ => .file path
  | none, [] => .standardInput
  | none, commands => .arguments commands.reverse

def target (reading : Reading) : Target where
  source := reading.given.lookup .source
  database := reading.given.lookup .database
  config := reading.given.lookup .config
  noAutoTransaction := (reading.given.lookup .noAutoTransaction).isSome
  input := reading.input

/-- What has been asked for when all arguments have been taken. -/
def finish (reading : Reading) : Except Stop Request :=
  let has (key : Key) : Bool := (reading.given.lookup key).isSome
  let everywhere (key : Key) : Bool := has key || (reading.program.lookup key).isSome
  let asks (action : Action) : Except Stop Request :=
    .ok { action, verbose := everywhere .verbose, quiet := everywhere .quiet }
  if reading.awaiting.isSome || reading.conflicts then .error .usage
  else
    match reading.topic with
    | .program => .error .usage
    | .help => .error (.help reading.subject)
    | .grammar => asks .grammar
    | .run =>
        asks (.run reading.target (has .dryRun)
          ((reading.given.lookup .format).bind Table.Format.ofName?))
    | .plan => asks (.plan reading.target (has .json))

end Reading

def Request.ofArguments (arguments : List String) : Except Stop Request :=
  match arguments.foldlM Reading.take {} with
  | .error stop => .error stop
  | .ok reading => reading.finish

end Rollout.CommandLine
