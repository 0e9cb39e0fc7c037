import Rollout.Plan.Basic
import Rollout.Proofs.Plan.Assembled
import Rollout.Proofs.Plan.Draft

/-!
How the events of drafts come to steps, one draft after the other. A draft lands if it comes to its
end and the database, where it is asked, answers; the next one goes on from the state that it leaves
the database in.
-/

namespace Rollout

variable {State : Type}

/-- What one event comes to. Only listings ask the database. -/
inductive Draft.Event.Comes (database : Option (Database State)) :
    Event → State → List Step → State → Prop where
  | tried (pattern : String) (state : State) : Comes database (.tried pattern) state [] state
  | step (step : Step) (state : State) : Comes database (.step step) state [step] state
  | listing {own : Database State} (same : database = some own) {state after : State}
      {names : List String} (asked : own.perform .schemaNames state = (.ok names, after))
      (kind : ListKind) (command : Command) :
      Comes database (.listing kind command) state
        [.list kind (Plan.listedSchemas kind command names)] after

namespace Plan

variable {database : Option (Database State)}

/-- Each of the values leads to steps, from the state that the one before it leaves behind. -/
inductive Sequence {Value : Type} (one : Value → State → List Step → State → Prop) :
    List Value → State → List Step → State → Prop where
  | nil (state : State) : Sequence one [] state [] state
  | cons {value : Value} {list : List Value} {state middle after : State} {made steps : List Step}
      (here : one value state made middle) (rest : Sequence one list middle steps after) :
      Sequence one (value :: list) state (made ++ steps) after

/-- The events come to steps one after the other. -/
abbrev Passes (database : Option (Database State)) :
    List Draft.Event → State → List Step → State → Prop :=
  Sequence (Draft.Event.Comes database)

/-- A listing has no answer. -/
inductive Stops (database : Option (Database State)) :
    List Draft.Event → State → PlanError → State → Prop where
  | absent (none : database = none) (kind : ListKind) (command : Command)
      (events : List Draft.Event) (state : State) :
      Stops database (.listing kind command :: events) state (.noDatabase command.text) state
  | refused {own : Database State} (same : database = some own) {state after : State}
      {error : DatabaseError} (asked : own.perform .schemaNames state = (.error error, after))
      (kind : ListKind) (command : Command) (events : List Draft.Event) :
      Stops database (.listing kind command :: events) state (.database error) after
  | later {event : Draft.Event} {events : List Draft.Event} {state middle after : State}
      {made : List Step} {error : PlanError} (comes : event.Comes database state made middle)
      (stops : Stops database events middle error after) :
      Stops database (event :: events) state error after

theorem passes_or_stops (database : Option (Database State)) (events : List Draft.Event)
    (state : State) : (∃ steps after, Passes database events state steps after) ∨
      ∃ error after, Stops database events state error after := by
  induction events generalizing state with
  | nil => exact .inl ⟨[], state, .nil state⟩
  | cons event rest ih =>
      have onward {made : List Step} {middle : State}
          (comes : event.Comes database state made middle) :
          (∃ steps after, Passes database (event :: rest) state steps after) ∨
            ∃ error after, Stops database (event :: rest) state error after := by
        rcases ih middle with ⟨steps, after, passes⟩ | ⟨error, after, stops⟩
        · exact .inl ⟨_, after, .cons comes passes⟩
        · exact .inr ⟨error, after, .later comes stops⟩
      cases event with
      | tried pattern => exact onward (.tried pattern state)
      | step step => exact onward (.step step state)
      | listing kind command =>
          cases database with
          | none => exact .inr ⟨_, state, .absent rfl kind command rest state⟩
          | some own =>
              cases asked : own.perform .schemaNames state with
              | mk answer next =>
                  cases answer with
                  | error error => exact .inr ⟨_, next, .refused rfl asked kind command rest⟩
                  | ok names => exact onward (.listing rfl asked kind command)

theorem settle_cons {event : Draft.Event} {state middle : State} {made : List Step}
    (comes : event.Comes database state made middle) (outcome : Except PlanError Unit)
    (rest : List Draft.Event) :
    (settle database outcome (event :: rest) state).1.steps =
        made ++ (settle database outcome rest middle).1.steps ∧
      (settle database outcome (event :: rest) state).1.outcome =
        (settle database outcome rest middle).1.outcome ∧
      (settle database outcome (event :: rest) state).2 =
        (settle database outcome rest middle).2 := by
  cases comes with
  | tried pattern => exact ⟨rfl, rfl, rfl⟩
  | step step => exact ⟨rfl, rfl, rfl⟩
  | listing same asked kind command =>
      subst same
      simp [settle, asked, pushStep]

namespace Sequence

variable {Value Key : Type} {one two : Value → State → List Step → State → Prop}
  {list first second : List Value} {state middle after : State} {steps early late : List Step}

theorem append (start : Sequence one first state early middle)
    (rest : Sequence one second middle late after) :
    Sequence one (first ++ second) state (early ++ late) after := by
  induction start with
  | nil => exact rest
  | cons here _ ih =>
      rw [List.append_assoc]
      exact .cons here (ih rest)

theorem of_append (sequence : Sequence one (first ++ second) state steps after) :
    ∃ early middle late, Sequence one first state early middle ∧
      Sequence one second middle late after ∧ steps = early ++ late := by
  induction first generalizing state steps with
  | nil => exact ⟨[], state, steps, .nil state, sequence, rfl⟩
  | cons value rest ih =>
      cases sequence with
      | cons here later =>
          obtain ⟨early, middle, late, start, ended, rfl⟩ := ih later
          exact ⟨_, middle, late, .cons here start, ended, (List.append_assoc _ _ _).symm⟩

theorem weaken (sequence : Sequence one list state steps after)
    (follows : ∀ value ∈ list, ∀ state steps after, one value state steps after →
      two value state steps after) : Sequence two list state steps after := by
  induction sequence with
  | nil state => exact .nil state
  | cons here _ ih =>
      obtain ⟨first, others⟩ := List.forall_mem_cons.mp follows
      exact .cons (first _ _ _ here) (ih others)

/-- A sequence of sequences is one sequence. -/
theorem flatMap {keys : List Key} {lists : Key → List Value}
    (sequence : Sequence (fun key => Sequence one (lists key)) keys state steps after) :
    Sequence one (keys.flatMap lists) state steps after := by
  induction sequence with
  | nil state => exact .nil state
  | cons here _ ih =>
      rw [List.flatMap_cons]
      exact here.append ih

theorem exists_of_mem (sequence : Sequence one list state steps after) {value : Value}
    (member : value ∈ list) : ∃ before made behind, one value before made behind := by
  induction sequence with
  | nil => cases member
  | cons here _ ih =>
      rcases List.mem_cons.mp member with rfl | later
      · exact ⟨_, _, _, here⟩
      · exact ih later

/-- Every step is one of those that some value leads to. -/
theorem mem_steps (sequence : Sequence one list state steps after) {step : Step}
    (member : step ∈ steps) :
    ∃ value ∈ list, ∃ before made behind, one value before made behind ∧ step ∈ made := by
  induction sequence with
  | nil => cases member
  | cons here _ ih =>
      rcases List.mem_append.mp member with first | later
      · exact ⟨_, List.mem_cons_self, _, _, _, here, first⟩
      · obtain ⟨value, among, found⟩ := ih later
        exact ⟨value, List.mem_cons_of_mem _ among, found⟩

end Sequence

namespace Passes

variable {events : List Draft.Event} {state middle after : State} {steps : List Step}

/-- What comes after the events is settled as if it stood alone. -/
theorem settle (passes : Passes database events state steps middle)
    (outcome : Except PlanError Unit) (more : List Draft.Event) :
    (Plan.settle database outcome (events ++ more) state).1.steps =
        steps ++ (Plan.settle database outcome more middle).1.steps ∧
      (Plan.settle database outcome (events ++ more) state).1.outcome =
        (Plan.settle database outcome more middle).1.outcome ∧
      (Plan.settle database outcome (events ++ more) state).2 =
        (Plan.settle database outcome more middle).2 := by
  induction passes with
  | nil => exact ⟨rfl, rfl, rfl⟩
  | cons comes _ ih =>
      obtain ⟨planned, ended, left⟩ := settle_cons comes outcome (_ ++ more)
      obtain ⟨same, outcome, last⟩ := ih
      rw [List.cons_append, planned, ended, left, List.append_assoc, same]
      exact ⟨rfl, outcome, last⟩

theorem filled (passes : Passes database events state steps after) :
    steps = [] ↔ events.any (·.isStep) = false := by
  induction passes with
  | nil => simp
  | cons comes _ ih =>
      cases comes with
      | tried => simpa [Draft.Event.isStep] using ih
      | step | listing => simp [Draft.Event.isStep]

end Passes

namespace Stops

variable {events : List Draft.Event} {state after : State} {error : PlanError}

theorem isEmpty (stops : Stops database events state error after) : error.isEmpty = false := by
  induction stops with
  | absent => rfl
  | refused => rfl
  | later _ _ ih => exact ih

theorem append (stops : Stops database events state error after) (more : List Draft.Event) :
    Stops database (events ++ more) state error after := by
  induction stops with
  | absent none => exact .absent none _ _ _ _
  | refused same asked => exact .refused same asked _ _ _
  | later comes _ ih => exact .later comes ih

theorem behind {first : List Draft.Event} {start : State} {steps : List Step}
    (stops : Stops database events state error after)
    (passes : Passes database first start steps state) :
    Stops database (first ++ events) start error after := by
  induction passes with
  | nil => exact stops
  | cons comes _ ih => exact .later comes (ih stops)

theorem settle (stops : Stops database events state error after)
    (outcome : Except PlanError Unit) (more : List Draft.Event) :
    (Plan.settle database outcome (events ++ more) state).1.outcome = .error error ∧
      (Plan.settle database outcome (events ++ more) state).2 = after := by
  induction stops with
  | absent none =>
      subst none
      exact ⟨rfl, rfl⟩
  | refused same asked =>
      subst same
      simp [Plan.settle, asked, fail]
  | later comes _ ih =>
      obtain ⟨-, ended, left⟩ := settle_cons comes outcome (_ ++ more)
      rw [List.cons_append, ended, left]
      exact ih

end Stops

/-- A plan that comes to its end is all that its events come to. -/
theorem settle_passes {events : List Draft.Event} {outcome : Except PlanError Unit} {state : State}
    (ended : (settle database outcome events state).1.outcome = .ok ()) :
    outcome = .ok () ∧ Passes database events state (settle database outcome events state).1.steps
      (settle database outcome events state).2 := by
  rcases passes_or_stops database events state with ⟨steps, after, passes⟩ | ⟨_, _, stops⟩
  · have settled := passes.settle outcome []
    simp only [List.append_nil, settle] at settled
    obtain ⟨planned, same, left⟩ := settled
    rw [planned, left]
    exact ⟨same.symm.trans ended, passes⟩
  · have settled := (stops.settle outcome []).1
    rw [List.append_nil, ended] at settled
    cases settled

end Plan

namespace Draft

variable {Value Next : Type} {database : Option (Database State)}

/-- The draft comes to its end with the value, and its events to the steps. -/
structure Lands (draft : Draft Value) (database : Option (Database State)) (state : State)
    (value : Value) (steps : List Step) (after : State) : Prop where
  ended : draft.outcome = .ok value
  passes : Plan.Passes database draft.events state steps after

namespace Lands

variable {Key : Type} {state middle after : State} {steps early late : List Step} {value : Value}
  {result : Next}

theorem done (value : Value) (state : State) :
    (Draft.done value).Lands database state value [] state := ⟨rfl, .nil state⟩

theorem step (step : Step) (state : State) :
    (Draft.step step).Lands database state () [step] state :=
  ⟨rfl, .cons (Event.Comes.step step state) (.nil state)⟩

theorem andThen {draft : Draft Value} {next : Value → Draft Next}
    (first : draft.Lands database state value early middle)
    (rest : (next value).Lands database middle result late after) :
    (draft.andThen next).Lands database state result (early ++ late) after := by
  obtain ⟨ended, passes⟩ := first
  unfold Draft.andThen
  rw [ended]
  exact ⟨rest.ended, passes.append rest.passes⟩

theorem of_andThen {draft : Draft Value} {next : Value → Draft Next}
    (lands : (draft.andThen next).Lands database state result steps after) :
    ∃ value early middle late, draft.Lands database state value early middle ∧
      (next value).Lands database middle result late after ∧ steps = early ++ late := by
  obtain ⟨ended, passes⟩ := lands
  obtain ⟨value, first, later, events⟩ := andThen_ok ended
  rw [events] at passes
  obtain ⟨early, middle, late, start, rest, same⟩ := passes.of_append
  exact ⟨value, early, middle, late, ⟨first, start⟩, ⟨later, rest⟩, same⟩

theorem each {draft : Key → Draft Unit} {list : List Key}
    (lands : (Draft.each draft list).Lands database state () steps after) :
    Plan.Sequence (fun key state steps after => (draft key).Lands database state () steps after)
      list state steps after := by
  induction list generalizing state steps with
  | nil =>
      obtain ⟨-, passes⟩ := lands
      cases passes
      exact .nil after
  | cons key rest ih =>
      obtain ⟨_, early, middle, late, here, later, rfl⟩ := of_andThen lands
      exact .cons here (ih later)

end Lands

theorem lands_of_settle {draft : Draft Unit} {state : State}
    (ended : (draft.settle database state).1.outcome = .ok ()) :
    draft.Lands database state () (draft.settle database state).1.steps
      (draft.settle database state).2 :=
  have settled := Plan.settle_passes ended
  ⟨settled.1, settled.2⟩

end Draft

end Rollout
