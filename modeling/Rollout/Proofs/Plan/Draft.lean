import Rollout.Plan.Draft

/-!
What holds of a draft step by step: of every event in it, of the error that it fails with, and of
the value that it goes on with.
-/

namespace Rollout.Draft

variable {Value Next : Type}

/-- Every event is of one kind; so is the error or the value that comes out. -/
structure Meets (events : Event → Prop) (faults : PlanError → Prop) (values : Value → Prop)
    (draft : Draft Value) : Prop where
  events : ∀ event ∈ draft.events, events event
  fault : ∀ error, draft.outcome = .error error → faults error
  value : ∀ value, draft.outcome = .ok value → values value

theorem bind_eq (draft : Draft Value) (next : Value → Draft Next) :
    draft >>= next = draft.andThen next := rfl

theorem pure_eq (value : Value) : (pure value : Draft Value) = done value := rfl

theorem ofSource_andThen (value : Value) (next : Value → Draft Next) :
    (ofSource (.ok value)).andThen next = next value := rfl

theorem andThen_ok {draft : Draft Value} {next : Value → Draft Next} {result : Next}
    (ended : (draft.andThen next).outcome = .ok result) :
    ∃ value, draft.outcome = .ok value ∧ (next value).outcome = .ok result ∧
      (draft.andThen next).events = draft.events ++ (next value).events := by
  unfold andThen at ended ⊢
  split at ended <;> rename_i outcome
  · cases ended
  · rw [outcome]
    exact ⟨_, rfl, ended, rfl⟩

/-- Drafts that come to an end one after the other each come to their end. -/
theorem each_ok {draft : Value → Draft Unit} {list : List Value}
    (ended : (each draft list).outcome = .ok ()) :
    (∀ value ∈ list, (draft value).outcome = .ok ()) ∧
      (each draft list).events = list.flatMap fun value => (draft value).events := by
  induction list with
  | nil => exact ⟨List.forall_mem_nil _, rfl⟩
  | cons value rest ih =>
      obtain ⟨_, first, later, events⟩ := andThen_ok ended
      obtain ⟨all, together⟩ := ih later
      refine ⟨List.forall_mem_cons.mpr ⟨first, all⟩, ?_⟩
      rw [each, events, together, List.flatMap_cons]

/-- What a draft plans, one of its parts does. -/
theorem mem_andThen {draft : Draft Value} {next : Value → Draft Next} {event : Event}
    (member : event ∈ (draft.andThen next).events) :
    event ∈ draft.events ∨ ∃ value, draft.outcome = .ok value ∧ event ∈ (next value).events := by
  unfold andThen at member
  split at member <;> rename_i outcome
  · exact .inl member
  · exact (List.mem_append.mp member).imp_right fun later => ⟨_, outcome, later⟩

theorem mem_each {draft : Value → Draft Unit} {list : List Value} {event : Event}
    (member : event ∈ (each draft list).events) :
    ∃ value ∈ list, event ∈ (draft value).events := by
  induction list with
  | nil => cases member
  | cons value rest ih =>
      rcases mem_andThen member with first | ⟨_, -, later⟩
      · exact ⟨value, List.mem_cons_self, first⟩
      · obtain ⟨other, among, inside⟩ := ih later
        exact ⟨other, List.mem_cons_of_mem _ among, inside⟩

theorem andThen_assoc {Last : Type} (draft : Draft Value) (next : Value → Draft Next)
    (last : Next → Draft Last) :
    (draft.andThen next).andThen last = draft.andThen fun value => (next value).andThen last := by
  unfold andThen
  cases draft.outcome with
  | error error => rfl
  | ok value =>
      dsimp only
      cases (next value).outcome with
      | error error => rfl
      | ok result => simp

/-- What is planned for one list and another is planned for the one and then for the other. -/
theorem each_append (draft : Value → Draft Unit) (first second : List Value) :
    each draft (first ++ second) = (each draft first).andThen fun _ => each draft second := by
  induction first with
  | nil => rfl
  | cons value rest ih =>
      rw [List.cons_append, each, ih, each, andThen_assoc]

theorem each_step (make : Value → Step) (list : List Value) :
    each (fun value => step (make value)) list =
      ⟨list.map fun value => .step (make value), .ok ()⟩ := by
  induction list with
  | nil => rfl
  | cons value rest ih =>
      rw [each, ih]
      rfl

namespace Meets

variable {events : Event → Prop} {faults : PlanError → Prop} {values : Value → Prop}
  {results : Next → Prop}

theorem done {value : Value} (held : values value) :
    Meets events faults values (Draft.done value) := by
  constructor
  · intro event member
    cases member
  · intro error failed
    cases failed
  · intro result same
    cases same
    exact held

theorem fail {error : PlanError} (held : faults error) :
    Meets events faults values (Draft.fail error) := by
  constructor
  · intro event member
    cases member
  · intro fault failed
    cases failed
    exact held
  · intro result same
    cases same

theorem event {event : Event} (held : events event) :
    Meets events faults (fun _ => True) (Draft.event event) := by
  constructor
  · intro only member
    rwa [List.mem_singleton.mp member]
  · intro error failed
    cases failed
  · intro result same
    trivial

theorem ofSource {result : Except SourceError Value} (fault : ∀ error, faults (.source error))
    (held : ∀ value, result = .ok value → values value) :
    Meets events faults values (Draft.ofSource result) := by
  constructor
  · intro event member
    cases member
  · intro error failed
    cases result with
    | error first =>
        cases failed
        exact fault first
    | ok value => cases failed
  · intro value same
    cases result with
    | error first => cases same
    | ok first =>
        cases same
        exact held _ rfl

theorem andThen {draft : Draft Value} {next : Value → Draft Next}
    (first : Meets events faults values draft)
    (rest : ∀ value, values value → Meets events faults results (next value)) :
    Meets events faults results (draft.andThen next) := by
  unfold Draft.andThen
  cases outcome : draft.outcome with
  | error error =>
      constructor
      · exact first.events
      · intro fault failed
        cases failed
        exact first.fault error outcome
      · intro result same
        cases same
  | ok value =>
      have later := rest value (first.value value outcome)
      constructor
      · intro event member
        rcases List.mem_append.mp member with earlier | after
        · exact first.events event earlier
        · exact later.events event after
      · exact later.fault
      · exact later.value

theorem weaken {draft : Draft Value} {others : Value → Prop}
    (met : Meets events faults values draft) (follows : ∀ value, values value → others value) :
    Meets events faults others draft :=
  ⟨met.events, met.fault, fun value same => follows value (met.value value same)⟩

theorem each {draft : Value → Draft Unit} {list : List Value}
    (all : ∀ value ∈ list, Meets events faults (fun _ => True) (draft value)) :
    Meets events faults (fun _ => True) (Draft.each draft list) := by
  induction list with
  | nil => exact done trivial
  | cons value rest ih =>
      exact andThen (all value List.mem_cons_self) fun _ _ =>
        ih fun other member => all other (List.mem_cons_of_mem _ member)

end Meets

/-- The draft comes to its end with such a value, and the event is in it so often. -/
structure Tallies (event : Event) (count : Nat) (values : Value → Prop) (draft : Draft Value) :
    Prop where
  count : draft.events.count event = count
  ends : ∃ value, draft.outcome = .ok value ∧ values value

namespace Tallies

variable {event : Event} {values : Value → Prop} {results : Next → Prop}

theorem done {value : Value} (held : values value) : Tallies event 0 values (Draft.done value) :=
  ⟨rfl, value, rfl, held⟩

theorem ofSource {result : Except SourceError Value} {value : Value} (ended : result = .ok value)
    (held : values value) : Tallies event 0 values (Draft.ofSource result) := by
  subst ended
  exact ⟨rfl, value, rfl, held⟩

theorem andThen {draft : Draft Value} {next : Value → Draft Next} {first second : Nat}
    (start : Tallies event first values draft)
    (rest : ∀ value, values value → Tallies event second results (next value)) :
    Tallies event (first + second) results (draft.andThen next) := by
  obtain ⟨counted, value, ended, held⟩ := start
  obtain ⟨later, last, outcome, holds⟩ := rest value held
  refine ⟨?_, last, ?_, holds⟩
  · simp [Draft.andThen, ended, counted, later]
  · simp [Draft.andThen, ended, outcome]

theorem thenNever {draft : Draft Value} {next : Value → Draft Next} {count : Nat}
    (start : Tallies event count values draft)
    (rest : ∀ value, values value → Tallies event 0 results (next value)) :
    Tallies event count results (draft.andThen next) :=
  andThen start rest

theorem afterNever {draft : Draft Value} {next : Value → Draft Next} {count : Nat}
    (start : Tallies event 0 values draft)
    (rest : ∀ value, values value → Tallies event count results (next value)) :
    Tallies event count results (draft.andThen next) := by
  have both := andThen start rest
  rwa [Nat.zero_add] at both

theorem weaken {draft : Draft Value} {count : Nat} {others : Value → Prop}
    (tallies : Tallies event count values draft) (follows : ∀ value, values value → others value) :
    Tallies event count others draft :=
  ⟨tallies.count, tallies.ends.imp fun value => And.imp_right (follows value)⟩

theorem each_never {draft : Value → Draft Unit} {list : List Value}
    (all : ∀ value ∈ list, Tallies event 0 (fun _ => True) (draft value)) :
    Tallies event 0 (fun _ => True) (Draft.each draft list) := by
  induction list with
  | nil => exact done trivial
  | cons value rest ih =>
      obtain ⟨first, others⟩ := List.forall_mem_cons.mp all
      exact afterNever first fun _ _ => ih others

/-- Among drafts for distinct values, the event is only in the one for this value. -/
theorem each_distinct [DecidableEq Value] {draft : Value → Draft Unit} {list : List Value}
    {only : Value} {count : Nat} (distinct : list.Nodup)
    (here : only ∈ list → Tallies event count (fun _ => True) (draft only))
    (others : ∀ value ∈ list, value ≠ only → Tallies event 0 (fun _ => True) (draft value)) :
    Tallies event (if only ∈ list then count else 0) (fun _ => True) (Draft.each draft list) := by
  induction list with
  | nil => exact done trivial
  | cons value rest ih =>
      obtain ⟨fresh, later⟩ := List.nodup_cons.mp distinct
      obtain ⟨first, after⟩ := List.forall_mem_cons.mp others
      by_cases same : value = only
      · subst same
        have none : Tallies event 0 (fun _ => True) (Draft.each draft rest) :=
          each_never fun other member => after other member fun same => fresh (same ▸ member)
        rw [if_pos List.mem_cons_self]
        exact thenNever (here List.mem_cons_self) fun _ _ => none
      · have among : only ∈ value :: rest ↔ only ∈ rest := by simp [Ne.symm same]
        simp only [among]
        exact afterNever (first same) fun _ _ =>
          ih later (fun member => here (List.mem_cons_of_mem _ member)) after

end Tallies

/-- A draft that comes to its end has tried something. -/
def Tries (draft : Draft Value) : Prop := ∀ value, draft.outcome = .ok value → draft.patterns ≠ []

namespace Tries

variable {draft : Draft Value} {next : Value → Draft Next}

theorem fail (error : PlanError) : (Draft.fail error : Draft Value).Tries := nofun

theorem tried (pattern : String) : (Draft.tried pattern).Tries := by
  intro value _ none
  cases none

theorem andThen (first : draft.Tries) : (draft.andThen next).Tries := by
  intro result ended
  obtain ⟨value, outcome, -, events⟩ := andThen_ok ended
  unfold patterns
  rw [events, List.filterMap_append]
  intro none
  exact first value outcome (List.append_eq_nil_iff.mp none).1

theorem after (rest : ∀ value, (next value).Tries) : (draft.andThen next).Tries := by
  intro result ended
  obtain ⟨value, -, later, events⟩ := andThen_ok ended
  unfold patterns
  rw [events, List.filterMap_append]
  intro none
  exact rest value result later (List.append_eq_nil_iff.mp none).2

theorem each {draft : Value → Draft Unit} {list : List Value} (filled : list ≠ [])
    (all : ∀ value, (draft value).Tries) : (Draft.each draft list).Tries := by
  cases list with
  | nil => contradiction
  | cons value rest => exact andThen (all value)

end Tries

end Rollout.Draft
