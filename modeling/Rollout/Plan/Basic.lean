import Rollout.Command.Parser
import Rollout.Plan.Objects
import Rollout.Plan.Seeds

/-!
Planning commands. A command that has effects is planned as itself, for the audit, and the steps
it resolves to; one that resolves to none has no plan.
-/

namespace Rollout

namespace Planner

def depthLimit : Nat := 16

/-- The command and the steps of its draft, of which there must be one. -/
def withSteps (command : Command) (draft : Draft Unit) : Draft Unit :=
  let events := .step (.runCommand command.text) :: draft.events
  match draft.outcome with
  | .error error => ⟨events, .error error⟩
  | .ok () =>
      if draft.events.any (·.isStep) then ⟨events, .ok ()⟩
      else if draft.patterns = [] then
        ⟨events, .error (.noSchemas command.text command.schemaFilter)⟩
      else ⟨events, .error (.noMatch command.text (Text.orderedSet draft.patterns))⟩

/-- Plans to begin, commit or roll back, which only a run with explicit transactions may do. -/
def planTransaction (planner : Planner) (command : Command) (steps : List Step) : Draft Unit :=
  if planner.autoTransaction then .fail (.transaction (.owned command.root))
  else .each .step steps

/-- Plans to list something, in schemas that are not known yet. -/
def planList (command : Command) : Draft Unit :=
  match command.object.bind ListKind.ofName? with
  | some kind => .event (.listing kind command)
  | none => command.unknown

/-- Plans one command, given what becomes of files of commands. -/
def planWith (planner : Planner) (inlined : FileRef → Draft Unit) (command : Command) :
    Draft Unit :=
  match command.root with
  | "begin" => planner.planTransaction command [.begin]
  | "commit" => planner.planTransaction command [.runCommand command.text, .commit]
  | "rollback" => planner.planTransaction command [.runCommand command.text, .rollback]
  | "list" => planList command
  | "seed" => withSteps command (planner.planSeeds inlined command)
  | "sql" => withSteps command (planner.planScript command)
  | root =>
      match Verb.ofName? root with
      | some verb => withSteps command (planner.planObjects command verb)
      | none => command.unknown

/-- The commands of a file, between marks, with files nested down to a depth. -/
def inlineFile (planner : Planner) : Nat → FileRef → Draft Unit
  | 0, file => .fail (.tooDeep file.written depthLimit)
  | depth + 1, file => do
      let text ← .ofSource (planner.snapshot.read file.path)
      match Command.parse planner.grammar text with
      | .error error => .fail (.nestedParse file.written error)
      | .ok commands =>
          if commands.any (·.ref.isSome) then .fail (.nestedRef file.written)
          else
            Draft.step (.enterFile file)
            Draft.each (planner.planWith (planner.inlineFile depth)) commands
            Draft.step (.leaveFile file)

def plan (planner : Planner) (command : Command) : Draft Unit :=
  planner.planWith (planner.inlineFile depthLimit) command

end Planner

/-- What is left of a draft once a database has been asked for its schemas. -/
structure Plan where
  steps : List Step
  /-- The patterns that were tried, in order. -/
  tried : List String
  outcome : Except PlanError Unit

namespace Plan

def fail (error : PlanError) : Plan := ⟨[], [], .error error⟩

def pushStep (step : Step) (plan : Plan) : Plan := { plan with steps := step :: plan.steps }

def pushPattern (pattern : String) (plan : Plan) : Plan :=
  { plan with tried := pattern :: plan.tried }

/-- The schemas that a list command shows. Foreign keys are shown for all. -/
def listedSchemas (kind : ListKind) (command : Command) (names : List String) : List String :=
  let ordered := Text.ascending names
  match kind with
  | .foreignKeys => ordered
  | _ => command.filterSchemas ordered

/-- Goes through the events of a draft and asks the database, if there is one, for the names of
its schemas as often as needed. -/
def settle {State : Type} (database : Option (Database State)) (outcome : Except PlanError Unit) :
    List Draft.Event → State → Plan × State
  | [], state => (⟨[], [], outcome⟩, state)
  | .tried pattern :: rest, state =>
      let (plan, after) := settle database outcome rest state
      (plan.pushPattern pattern, after)
  | .step step :: rest, state =>
      let (plan, after) := settle database outcome rest state
      (plan.pushStep step, after)
  | .listing kind command :: rest, state =>
      match database with
      | none => (fail (.noDatabase command.text), state)
      | some database =>
          match database.perform .schemaNames state with
          | (.error error, after) => (fail (.database error), after)
          | (.ok names, after) =>
              let (plan, last) := settle (some database) outcome rest after
              (plan.pushStep (.list kind (listedSchemas kind command names)), last)

end Plan

/-- The plan that a draft comes to with a database. -/
def Draft.settle {State : Type} (draft : Draft Unit) (database : Option (Database State))
    (state : State) : Plan × State :=
  Plan.settle database draft.outcome draft.events state

end Rollout
