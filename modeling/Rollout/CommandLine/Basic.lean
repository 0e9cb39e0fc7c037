import Rollout.CommandLine.Help
import Rollout.Grammar.Outline
import Rollout.Log.Filter
import Rollout.Session.Plan
import Rollout.Settings.Document
import Rollout.Sqlite.Basic
import Rollout.Step.Document

/-!
What the program does with its arguments: everything it writes, and the status it ends with.
-/

namespace Rollout.CommandLine

structure Report where
  status : Nat := 0
  output : String := ""
  errors : String := ""
deriving DecidableEq, Repr

structure Surroundings where
  /-- What is on standard input; nothing if that is a terminal. -/
  input : Option Content := some (.text "")
  worlds : Rollout.Surroundings

namespace Surroundings

def start (surroundings : Surroundings) : World := surroundings.worlds 0

end Surroundings

/-! What a run is about. -/

/-- The settings of a run: those of a file, then those of the environment and the options. -/
def Target.settings (world : World) (target : Target) : Except String Settings := do
  let settings ← match target.config with
    | none => pure {}
    | some path =>
        (Settings.load world.workspace path).mapError fun error => s!"{path}: {error.message}"
  return { settings with
    source := (target.source.or (world.environment.lookup "DDSL_SOURCE")).or settings.source
    database := (target.database.or (world.environment.lookup "DDSL_DATABASE")).or settings.database
    autoTransaction := settings.autoTransaction && !target.noAutoTransaction }

def Input.text (surroundings : Surroundings) : Input → Except String String
  | arguments commands => .ok ("\n".intercalate commands)
  | file path =>
      (surroundings.start.workspace.readText path).mapError fun fault =>
        s!"{path}: {fault.message}"
  | standardInput =>
      match surroundings.input with
      | some (.text text) => .ok text
      | some (.binary _) => .error s!"failed to read stdin: {FileFault.invalidText.message}"
      | none => .error "no commands given; pass them as arguments, with --file, or on stdin"

def registry (workspace : Workspace) : Registry Sqlite.State :=
  Sqlite.register workspace (Registry.withTrees {})

/-! Runs. -/

/-- The filter that the environment asks for, or else the one that the options ask for. -/
def Request.filter (environment : List (String × String)) (request : Request) : LogFilter :=
  let threshold : Threshold :=
    if request.verbose then .debug else if request.quiet then .warn else .info
  ((environment.lookup "RUST_LOG").bind LogFilter.ofText?).getD [⟨"ddsl", threshold⟩]

def failed (message : String) : Report := { status := 1, errors := s!"error: {message}\n" }

/-- What a session leaves: what it has written if it has run, and what it has logged. -/
def reported (filter : LogFilter) (result : Except String String)
    (session : Session Sqlite.State) : Report :=
  let log := filter.lines session.log
  match result with
  | .ok output => { output := session.output ++ output, errors := log }
  | .error message =>
      let report := failed message
      { report with output := session.output, errors := log ++ report.errors }

/-- Runs commands. The session is closed in any case. -/
def execute (filter : LogFilter) (surroundings : Surroundings) (settings : Settings)
    (text : String) (session : Session Sqlite.State) : Report :=
  let (result, session) := session.run Sqlite.database surroundings.worlds text
  let (closed, session) := session.close Sqlite.database
  match result, closed with
  | .error error, _ | .ok _, .error error => reported filter (.error error.message) session
  | .ok count, .ok () =>
      let fields : List (String × LogValue) :=
        [("executed", .plain s!"{count}"), ("dry_run", .plain s!"{settings.dryRun}")]
      let done : LogEntry := { level := .info, message := "done", fields, origin := .program }
      reported filter (.ok "") (session.logged done)

def shown (json : Bool) (steps : List Step) : String :=
  if json then (Text.Json.list (steps.map Step.document)).written
  else "\n".intercalate (steps.map Step.written)

def preview (filter : LogFilter) (world : World) (json : Bool) (text : String)
    (session : Session Sqlite.State) : Report :=
  let (result, session) := session.plan Sqlite.database world text
  let steps := session.context.queue.steps
  let (closed, session) := session.close Sqlite.database
  match closed, result with
  | .error error, _ | .ok (), .error error => reported filter (.error error.message) session
  | .ok (), .ok _ => reported filter (.ok (shown json steps ++ "\n")) session

/-- Opens a session for a target; `continuation` gets it with the commands to run. -/
def withSession (surroundings : Surroundings) (target : Target) (adjust : Settings → Settings)
    (continuation : Settings → String → Session Sqlite.State → Report) : Report :=
  let world := surroundings.start
  match target.settings world with
  | .error message => failed message
  | .ok settings =>
      let settings := adjust settings
      match target.input.text surroundings with
      | .error message => failed message
      | .ok text =>
          match Session.openWith (registry world.workspace) settings with
          | .error error => failed error.message
          | .ok session => continuation settings text session

def Request.run (surroundings : Surroundings) (request : Request) : Report :=
  let filter := request.filter surroundings.start.environment
  match request.action with
  | .grammar => { output := Grammar.builtin.describe }
  | .run target dryRun format =>
      let adjust (settings : Settings) : Settings := { settings with
        dryRun := settings.dryRun || dryRun
        format := format.getD settings.format }
      withSession surroundings target adjust (execute filter surroundings)
  | .plan target json =>
      withSession surroundings target (fun settings => { settings with dryRun := true })
        fun _ => preview filter surroundings.start json

def run (arguments : List String) (surroundings : Surroundings) : Report :=
  match Request.ofArguments arguments with
  | .ok request => request.run surroundings
  | .error .usage => { status := 2, errors := usageText }
  | .error .version => { output := versionText }
  | .error (.help topic) => { output := topic.page surroundings.start.environment }

def readsInput (arguments : List String) : Bool :=
  match Request.ofArguments arguments with
  | .ok { action := .run target _ _, .. } | .ok { action := .plan target _, .. } =>
      target.input == .standardInput
  | _ => false

end Rollout.CommandLine
