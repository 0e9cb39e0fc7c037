import Rollout.CommandLine.Options

/-!
What the program tells about itself.
-/

namespace Rollout.CommandLine

def versionText : String := "ddsl 0.1.0\n"

def Topic.summary : Topic → String
  | .program => "Run DDSL schema commands against a database"
  | .run => "Compile and execute commands"
  | .plan => "Compile commands and print the instruction list without executing"
  | .grammar => "Print the command grammar"
  | .help => "Print this message or the help of the given subcommand(s)"

def Topic.usage : Topic → String
  | .program => "ddsl [OPTIONS] <COMMAND>"
  | .run => "ddsl run [OPTIONS] [COMMANDS]..."
  | .plan => "ddsl plan [OPTIONS] [COMMANDS]..."
  | .grammar => "ddsl grammar [OPTIONS]"
  | .help => "ddsl help [COMMAND]..."

/-- The arguments that are no options, and the commands, with what they mean. -/
def Topic.parts : Topic → String
  | .program =>
      "Commands:\n" ++
      "  run      Compile and execute commands\n" ++
      "  plan     Compile commands and print the instruction list without executing\n" ++
      "  grammar  Print the command grammar\n" ++
      "  help     Print this message or the help of the given subcommand(s)\n"
  | .run | .plan =>
      "Arguments:\n  [COMMANDS]...  Commands to run; several may be separated by ';'\n"
  | .grammar => ""
  | .help => "Arguments:\n  [COMMAND]...  Print help for the subcommand(s)\n"

namespace Key

def spelling (key : Key) : String :=
  let letter := match key.letter? with
    | some letter => "-" ++ String.singleton letter ++ ", "
    | none => "    "
  let value := if key.takesValue then " <" ++ key.name.map Char.toUpper ++ ">" else ""
  letter ++ "--" ++ key.name ++ value

/-- What an option means to a topic. The environment stands in for two of them. -/
def meaning (topic : Topic) (environment : List (String × String)) : Key → String
  | verbose => "Show debug logging"
  | quiet => "Only show warnings and errors"
  | help => "Print help"
  | version => "Print version"
  | source => "Source tree location (dir, file://dir, dir#ref, git://dir#ref) [env: DDSL_SOURCE=" ++
      (environment.lookup "DDSL_SOURCE").getD "" ++ "]"
  | database => "Database location (sqlite://path) [env: DDSL_DATABASE=" ++
      (environment.lookup "DDSL_DATABASE").getD "" ++ "]"
  | config => "YAML run configuration; flags and environment take precedence"
  | file => "Read commands from a file ('-' for stdin)"
  | dryRun => "Log what would run without changing anything"
  | noAutoTransaction =>
      if topic = .plan then "Compile as if auto-transaction mode were off"
      else "Do not wrap the batch in a transaction; use begin/commit explicitly"
  | format => "Output format for list commands [possible values: text, csv, json]"
  | json => "Print instructions as JSON"

end Key

/-- The options of a topic, each with its meaning, the meanings in one column. -/
def Topic.options (topic : Topic) (environment : List (String × String)) : String :=
  match topic.keys with
  | [] => ""
  | keys =>
      let width := keys.foldl (fun width key => max width key.spelling.length) 0
      let line (key : Key) : String :=
        let padding := String.ofList (List.replicate (width - key.spelling.length) ' ')
        "  " ++ key.spelling ++ padding ++ "  " ++ key.meaning topic environment ++ "\n"
      "Options:\n" ++ String.join (keys.map line)

def Topic.page (topic : Topic) (environment : List (String × String)) : String :=
  let parts := [topic.summary ++ "\n", "Usage: " ++ topic.usage ++ "\n", topic.parts,
    topic.options environment]
  "\n".intercalate (parts.filter (· != ""))

def usageText : String :=
  "error: the arguments are not understood\n\nUsage: " ++ Topic.program.usage ++
    "\n\nFor more information, try '--help'.\n"

end Rollout.CommandLine
