import Rollout.Context
import Rollout.Proofs.Plan.Assembled

/-!
What plans come to without the help of a database. A draft that leaves no listing open has its own
steps, in order, and its own outcome; so have the plans of all commands on objects.
-/

namespace Rollout

namespace Draft

def Event.step? : Event → Option Step
  | step made => some made
  | _ => none

/-- The steps that a draft has planned by itself. -/
def stepsOf (events : List Event) : List Step := events.filterMap Event.step?

/-- No listing is left open. -/
def Closed (events : List Event) : Prop := ∀ kind command, .listing kind command ∉ events

theorem mem_stepsOf {events : List Event} {step : Step} :
    step ∈ stepsOf events ↔ .step step ∈ events := by
  unfold stepsOf
  rw [List.mem_filterMap]
  constructor
  · rintro ⟨event, member, same⟩
    cases event <;> cases same
    exact member
  · exact fun member => ⟨_, member, rfl⟩

theorem count_stepsOf (events : List Event) (step : Step) :
    (stepsOf events).count step = events.count (.step step) := by
  induction events with
  | nil => rfl
  | cons event rest ih =>
      cases event with
      | tried pattern => exact ih.trans (by simp)
      | step other =>
          have same : (stepsOf (.step other :: rest)).count step =
              (other :: stepsOf rest).count step := rfl
          simp [same, List.count_cons, ih]
      | listing kind command => exact ih.trans (by simp)

/-- Wherever the second event is, the first is before it. -/
def Leads (first second : Event) (events : List Event) : Prop :=
  ∀ before after, events = before ++ second :: after → first ∈ before

section Leads

variable {Value Next : Type} {first second : Event}

theorem Leads.of_absent {events : List Event} (absent : second ∉ events) :
    Leads first second events := by
  rintro before after rfl
  exact absurd (List.mem_append_right before List.mem_cons_self) absent

theorem Leads.append {events more : List Event} (start : Leads first second events)
    (rest : second ∈ more → first ∈ events ∨ Leads first second more) :
    Leads first second (events ++ more) := by
  intro before after whole
  -- the second event is in the later part, or in the earlier one
  rcases List.append_eq_append_iff.mp whole with ⟨tail, rfl, behind⟩ | ⟨tail, rfl, behind⟩
  · have later : second ∈ more := by simp [behind]
    rcases rest later with earlier | leads
    · exact List.mem_append_left tail earlier
    · exact List.mem_append_right events (leads tail after behind)
  · cases tail with
    | nil =>
        obtain rfl : second :: after = more := behind
        rcases rest List.mem_cons_self with earlier | leads
        · simpa using earlier
        · exact absurd (leads [] after rfl) List.not_mem_nil
    | cons event tail =>
        obtain ⟨rfl, -⟩ := List.cons.inj behind
        exact start before tail rfl

theorem Leads.andThen {draft : Draft Value} {next : Value → Draft Next}
    (start : Leads first second draft.events)
    (rest : ∀ value, draft.outcome = .ok value → second ∈ (next value).events →
      first ∈ draft.events ∨ Leads first second (next value).events) :
    Leads first second (draft.andThen next).events := by
  unfold Draft.andThen
  split <;> rename_i outcome
  · exact start
  · exact start.append (rest _ outcome)

theorem Leads.each {draft : Value → Draft Unit} {list : List Value}
    (all : ∀ value ∈ list, Leads first second (draft value).events) :
    Leads first second (Draft.each draft list).events := by
  induction list with
  | nil => exact .of_absent List.not_mem_nil
  | cons value rest ih =>
      obtain ⟨here, later⟩ := List.forall_mem_cons.mp all
      exact .andThen here fun _ _ _ => .inr (ih later)

/-- The steps of a draft are in the order of its events. -/
theorem Leads.stepsOf {first second : Step} {events : List Event}
    (leads : Leads (.step first) (.step second) events) {before after : List Step}
    (whole : Draft.stepsOf events = before ++ second :: after) : first ∈ before := by
  obtain ⟨start, rest, rfl, rfl, tail⟩ := List.filterMap_eq_append_iff.mp whole
  obtain ⟨quiet, event, later, rfl, silent, same, -⟩ := List.filterMap_eq_cons_iff.mp tail
  obtain rfl : event = .step second := by
    cases event <;> cases same
    rfl
  -- between the steps stand only events that are none
  have earlier : .step first ∈ start ++ quiet := leads _ later (by simp)
  rcases List.mem_append.mp earlier with led | none
  · exact mem_stepsOf.mpr led
  · cases silent _ none

end Leads

theorem Closed.append {first second : List Event} (start : Closed first) (rest : Closed second) :
    Closed (first ++ second) := by
  intro kind command member
  rcases List.mem_append.mp member with earlier | later
  · exact start kind command earlier
  · exact rest kind command later

end Draft

namespace Plan

variable {State : Type}

/-- Only listings ask the database. -/
theorem settle_closed {events : List Draft.Event} (closed : Draft.Closed events)
    (database : Option (Database State)) (outcome : Except PlanError Unit) (state : State) :
    (settle database outcome events state).1.steps = Draft.stepsOf events ∧
      (settle database outcome events state).1.outcome = outcome := by
  induction events with
  | nil => exact ⟨rfl, rfl⟩
  | cons event rest ih =>
      have later := ih fun kind command member =>
        closed kind command (List.mem_cons_of_mem _ member)
      cases event with
      | tried pattern => exact later
      | step step => exact ⟨congrArg (step :: ·) later.1, later.2⟩
      | listing kind command => exact absurd List.mem_cons_self (closed kind command)

end Plan

namespace Planner

variable {planner : Planner}

theorem Assembled.closed {inlined : FileRef → Draft Unit} {Value : Type} {draft : Draft Value}
    (inlines : ∀ file, Draft.Closed (inlined file).events)
    (assembled : planner.Assembled inlined draft) : Draft.Closed draft.events := by
  induction assembled with
  | done | fail | ofSource => exact fun kind command => List.not_mem_nil
  | tried | work =>
      intro kind command member
      cases List.mem_singleton.mp member
  | inlined path => exact inlines _
  | andThen _ _ first rest =>
      unfold Draft.andThen
      split
      · exact first
      · exact first.append (rest _)

theorem planObjects_closed (planner : Planner) (command : Command) (verb : Verb) :
    Draft.Closed (planner.planObjects command verb).events := by
  have none : ∀ file : FileRef, Draft.Closed (Draft.done ()).events :=
    fun _ kind command => List.not_mem_nil
  exact Assembled.closed none (planner.planObjects_assembled command verb)

theorem withSteps_events (command : Command) (draft : Draft Unit) :
    (withSteps command draft).events = .step (.runCommand command.text) :: draft.events := by
  unfold withSteps
  dsimp only
  repeat' split
  all_goals rfl

theorem withSteps_ok {command : Command} {draft : Draft Unit} (ended : draft.outcome = .ok ())
    (filled : draft.events.any (·.isStep) = true) : (withSteps command draft).outcome = .ok () := by
  unfold withSteps
  dsimp only
  rw [ended]
  dsimp only
  rw [if_pos filled]

theorem withSteps_failed {command : Command} {draft : Draft Unit} {error : PlanError}
    (failed : draft.outcome = .error error) : (withSteps command draft).outcome = .error error := by
  unfold withSteps
  dsimp only
  rw [failed]

section Objects

variable {command : Command} {verb : Verb}

theorem planWith_verb (inlined : FileRef → Draft Unit) (root : command.root = verb.name) :
    planner.planWith inlined command = withSteps command (planner.planObjects command verb) := by
  unfold planWith
  rw [root]
  cases verb <;> rfl

theorem planWith_seed (inlined : FileRef → Draft Unit) (root : command.root = "seed") :
    planner.planWith inlined command = withSteps command (planner.planSeeds inlined command) := by
  unfold planWith
  rw [root]
  rfl

theorem plan_closed (root : command.root = verb.name) :
    Draft.Closed (planner.plan command).events := by
  rw [plan, planWith_verb _ root, withSteps_events]
  intro kind inner member
  rcases List.mem_cons.mp member with same | later
  · cases same
  · exact planObjects_closed planner command verb kind inner later

variable {State : Type} (database : Option (Database State)) (state : State)

/-- A command on objects is planned as itself and the steps of its draft. -/
theorem plan_steps (root : command.root = verb.name) :
    ((planner.plan command).settle database state).1.steps =
      .runCommand command.text :: Draft.stepsOf (planner.planObjects command verb).events := by
  rw [Draft.settle, (Plan.settle_closed (plan_closed root) database _ state).1, plan,
    planWith_verb _ root, withSteps_events]
  rfl

theorem plan_outcome (root : command.root = verb.name) :
    ((planner.plan command).settle database state).1.outcome =
      (withSteps command (planner.planObjects command verb)).outcome := by
  rw [Draft.settle, (Plan.settle_closed (plan_closed root) database _ state).2, plan,
    planWith_verb _ root]

theorem plan_ok (root : command.root = verb.name)
    (ended : (planner.planObjects command verb).outcome = .ok ())
    {step : Step} (member : .step step ∈ (planner.planObjects command verb).events) :
    ((planner.plan command).settle database state).1.outcome = .ok () := by
  rw [plan_outcome database state root]
  exact withSteps_ok ended (List.any_eq_true.mpr ⟨_, member, rfl⟩)

end Objects

end Planner

namespace Context

variable (context : Context) {plan : Plan}

theorem takePlan_ok (ended : plan.outcome = .ok ()) :
    (context.takePlan plan).1 = .ok plan.steps.length := by
  unfold takePlan
  dsimp only
  rw [ended]

/-- A plan that fails leaves the queue as it was. -/
theorem takePlan_error {error : PlanError} (failed : plan.outcome = .error error) :
    (context.takePlan plan).1 = .error error ∧
      (context.takePlan plan).2.queue = context.queue := by
  unfold takePlan
  dsimp only
  rw [failed]
  exact ⟨rfl, rfl⟩

theorem takePlan_attempted (plan : Plan) :
    (context.takePlan plan).2.attempted = Text.orderedSet plan.tried := by
  unfold takePlan
  dsimp only
  split <;> rfl

end Context

end Rollout
