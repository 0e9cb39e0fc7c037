import Rollout.Plan.Basic
import Rollout.Settings.Basic
import Rollout.Step

/-!
What planning and running share: the settings, the steps that wait, and where a run stands. Along
with the steps the queue keeps whether any has effects.
-/

namespace Rollout

/-- Does the step do more than show what a database holds? -/
def Step.hasEffects (step : Step) : Bool := !step.isList

structure Queue where
  steps : List Step := []
  /-- Does any of the steps have effects? -/
  effectful : Bool := false
deriving DecidableEq, Repr

namespace Queue

def push (queue : Queue) (step : Step) : Queue :=
  ⟨queue.steps ++ [step], queue.effectful || step.hasEffects⟩

def append (queue : Queue) (steps : List Step) : Queue := steps.foldl push queue

/-- Keeps the first steps only. -/
def truncate (queue : Queue) (length : Nat) : Queue :=
  let steps := queue.steps.take length
  ⟨steps, steps.any Step.hasEffects⟩

def length (queue : Queue) : Nat := queue.steps.length

end Queue

structure Context where
  source : Option Location := none
  database : Option Location := none
  autoTransaction : Bool := true
  dryRun : Bool := false
  format : Table.Format := .text
  /-- Has a transaction been opened? -/
  inTransaction : Bool := false
  /-- How many files of commands have been entered. -/
  depth : Nat := 0
  queue : Queue := {}
  /-- The patterns that the last command tried, ascending, each once. -/
  attempted : List String := []
deriving DecidableEq, Repr

namespace Context

def ofSettings (settings : Settings) : Except SettingsError Context :=
  match Settings.location? settings.source, Settings.location? settings.database with
  | .error error, _ => .error error
  | _, .error error => .error error
  | .ok source, .ok database =>
      .ok {
        source := source
        database := database
        autoTransaction := settings.autoTransaction
        dryRun := settings.dryRun
        format := settings.format }

def extend (context : Context) (steps : List Step) : Context :=
  { context with queue := context.queue.append steps }

/-- Keeps the first of the steps that wait. -/
def truncate (context : Context) (length : Nat) : Context :=
  { context with queue := context.queue.truncate length }

def emptied (context : Context) : Context := { context with queue := {} }

def clearAttempts (context : Context) : Context := { context with attempted := [] }

def recordAttempts (context : Context) (patterns : List String) : Context :=
  { context with
    attempted :=
      patterns.foldl (fun set pattern => Text.insertOrdered pattern set) context.attempted }

/-- What a plan leaves: its patterns count as tried, and its steps wait if it came to an end. -/
def takePlan (context : Context) (plan : Plan) : Except PlanError Nat × Context :=
  let context := context.clearAttempts.recordAttempts plan.tried
  match plan.outcome with
  | .error error => (.error error, context)
  | .ok () => (.ok plan.steps.length, context.extend plan.steps)

end Context

end Rollout
