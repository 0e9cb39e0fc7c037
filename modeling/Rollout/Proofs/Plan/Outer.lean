import Rollout.Proofs.Plan.Draft
import Rollout.Proofs.Plan.Settled

/-!
The steps that a command comes to by itself, outside of the files of commands that it leads to.
Planning enters such a file and leaves it again, and whatever the file holds stands in between.
-/

namespace Rollout

namespace Step

def isEnter : Step → Bool
  | enterFile _ => true
  | _ => false

def isLeave : Step → Bool
  | leaveFile _ => true
  | _ => false

/-- As many files of commands were left as were entered. -/
def Outside (before : List Step) : Prop := before.countP isLeave = before.countP isEnter

end Step

namespace Draft

variable {Value Next : Type}

def entered (events : List Event) : Nat := (stepsOf events).countP Step.isEnter

def left (events : List Event) : Nat := (stepsOf events).countP Step.isLeave

theorem entered_append (first second : List Event) :
    entered (first ++ second) = entered first + entered second := by
  simp [entered, stepsOf]

theorem left_append (first second : List Event) :
    left (first ++ second) = left first + left second := by
  simp [left, stepsOf]

/-- Files are entered before they are left, and left in the end. Outside of them, events are of one
kind. -/
structure Outer (kind : Event → Prop) (draft : Draft Value) : Prop where
  nested : ∀ before after, draft.events = before ++ after → left before ≤ entered before
  closed : ∀ value, draft.outcome = .ok value → left draft.events = entered draft.events
  outer : ∀ before event after, draft.events = before ++ event :: after →
    left before = entered before → kind event

namespace Outer

variable {kind other : Event → Prop}

theorem silent {draft : Draft Value} (none : draft.events = []) : Outer kind draft := by
  constructor
  · intro before after whole
    rw [none] at whole
    rw [(List.append_eq_nil_iff.mp whole.symm).1]
    exact Nat.le_refl _
  · intro value _
    rw [none]
    rfl
  · intro before event after whole
    rw [none] at whole
    simp at whole

theorem weaken {draft : Draft Value} (outer : Outer kind draft)
    (follows : ∀ event, kind event → other event) : Outer other draft :=
  ⟨outer.nested, outer.closed, fun before event after whole outside =>
    follows event (outer.outer before event after whole outside)⟩

theorem single {event : Event} (held : kind event) (enters : entered [event] = 0)
    (leaves : left [event] = 0) : Outer kind (Draft.event event) := by
  constructor
  · intro before after whole
    have none : left before + left after = 0 := by
      rw [← left_append, ← whole]
      exact leaves
    omega
  · intro value _
    exact leaves.trans enters.symm
  · intro before found after whole _
    cases before with
    | nil =>
        obtain ⟨same, -⟩ := List.cons.inj whole
        rwa [← same]
    | cons first rest => simp [Draft.event] at whole

/-- A draft that goes on does so outside of files. -/
theorem andThen {draft : Draft Value} {next : Value → Draft Next} (first : Outer kind draft)
    (rest : ∀ value, draft.outcome = .ok value → Outer kind (next value)) :
    Outer kind (draft.andThen next) := by
  unfold Draft.andThen
  split <;> rename_i value outcome
  · exact ⟨first.nested, nofun, first.outer⟩
  · have later := rest value outcome
    have even := first.closed value outcome
    constructor
    · intro before after whole
      rcases List.append_eq_append_iff.mp whole with ⟨tail, rfl, behind⟩ | ⟨tail, start, -⟩
      · have inside := later.nested tail after behind
        rw [left_append, entered_append]
        omega
      · exact first.nested before tail start
    · intro result ended
      have odd := later.closed result ended
      rw [left_append, entered_append]
      omega
    · -- the first draft has left what it entered, so its end is outside
      intro before event after whole outside
      rcases List.append_eq_append_iff.mp whole with ⟨tail, rfl, behind⟩ | ⟨tail, start, behind⟩
      · rw [left_append, entered_append] at outside
        exact later.outer tail event after behind (by omega)
      · cases tail with
        | nil =>
            obtain rfl : draft.events = before := by simpa using start
            exact later.outer [] event after behind.symm rfl
        | cons found tail =>
            obtain ⟨rfl, -⟩ := List.cons.inj behind
            exact first.outer before event tail start outside

theorem each {draft : Value → Draft Unit} {list : List Value}
    (all : ∀ value ∈ list, Outer kind (draft value)) : Outer kind (Draft.each draft list) := by
  induction list with
  | nil => exact .silent rfl
  | cons value rest ih =>
      obtain ⟨here, later⟩ := List.forall_mem_cons.mp all
      exact .andThen here fun _ _ => ih later

end Outer

/-- What a file holds, and then the mark that it is left. -/
def closing (file : FileRef) (inner : Draft Unit) : Draft Unit :=
  inner.andThen fun _ => Draft.step (.leaveFile file)

section Closing

variable {kind : Event → Prop} {file : FileRef} {inner : Draft Unit}

/-- Before the mark, no more files are left than were entered. -/
theorem closing_nested (inside : Outer kind inner) {before after : List Event} {event : Event}
    (whole : (closing file inner).events = before ++ event :: after) :
    left before ≤ entered before := by
  unfold closing andThen at whole
  split at whole
  · exact inside.nested before _ whole
  · rcases List.append_eq_append_iff.mp whole with ⟨tail, rfl, behind⟩ | ⟨tail, start, -⟩
    · cases tail with
      | nil => simpa using inside.nested inner.events [] (by simp)
      | cons first rest =>
          have short := congrArg List.length behind
          simp [Draft.step, Draft.event] at short
    · exact inside.nested before tail start

variable (file) in
theorem closing_closed (inside : Outer kind inner) :
    left (closing file inner).events ≤ entered (closing file inner).events + 1 ∧
      ∀ value, (closing file inner).outcome = .ok value →
        left (closing file inner).events = entered (closing file inner).events + 1 := by
  have once : left [.step (.leaveFile file)] = 1 ∧ entered [.step (.leaveFile file)] = 0 :=
    ⟨rfl, rfl⟩
  unfold closing andThen
  split <;> rename_i outcome
  · exact ⟨Nat.le_succ_of_le (inside.nested inner.events [] (by simp)), nofun⟩
  · have even := inside.closed _ outcome
    dsimp only [Draft.step, Draft.event]
    rw [left_append, entered_append, once.1, once.2]
    exact ⟨by omega, fun _ _ => by omega⟩

/-- Nothing that a file holds stands outside of the marks. -/
theorem Outer.enclosed {other : Event → Prop} (inside : Outer kind inner)
    (held : other (.step (.enterFile file))) :
    Outer other ((Draft.step (.enterFile file)).andThen fun _ => closing file inner) := by
  have once : left [.step (.enterFile file)] = 0 ∧ entered [.step (.enterFile file)] = 1 :=
    ⟨rfl, rfl⟩
  have more (before : List Event) : left (.step (.enterFile file) :: before) = left before ∧
      entered (.step (.enterFile file) :: before) = 1 + entered before := by
    rw [← List.singleton_append, left_append, entered_append, once.1, once.2]
    exact ⟨Nat.zero_add _, rfl⟩
  obtain ⟨most, all⟩ := closing_closed file inside
  constructor
  · intro before after whole
    cases before with
    | nil => exact Nat.le_refl _
    | cons first before =>
        obtain ⟨rfl, rest⟩ := List.cons.inj whole
        rw [(more before).1, (more before).2]
        cases after with
        | nil =>
            obtain rfl : (closing file inner).events = before := by simpa using rest
            omega
        | cons event after =>
            have inner := closing_nested inside rest
            omega
  · intro value ended
    have odd := all value ended
    have counts := more (closing file inner).events
    exact counts.1.trans (odd.trans ((Nat.add_comm _ _).trans counts.2.symm))
  · intro before event after whole outside
    cases before with
    | nil =>
        obtain ⟨rfl, -⟩ := List.cons.inj whole
        exact held
    | cons first before =>
        -- behind the mark one more file was entered than left
        obtain ⟨rfl, rest⟩ := List.cons.inj whole
        rw [(more before).1, (more before).2] at outside
        have inner := closing_nested inside rest
        omega

end Closing

end Draft

namespace Planner

variable {planner : Planner} {kind : Draft.Event → Prop} {Value : Type}

open Draft (Outer)

theorem withSteps_outer {command : Command} {draft : Draft Unit} (outer : Outer kind draft)
    (held : kind (.step (.runCommand command.text))) :
    Outer kind (withSteps command draft) := by
  have both : Outer kind ((Draft.step (.runCommand command.text)).andThen fun _ => draft) :=
    .andThen (.single held rfl rfl) fun _ _ => outer
  refine ⟨?_, ?_, ?_⟩
  · rw [withSteps_events]
    exact both.nested
  · intro value ended
    rw [withSteps_events]
    refine both.closed () ?_
    unfold withSteps at ended
    dsimp only at ended
    split at ended
    · cases ended
    · assumption
  · rw [withSteps_events]
    exact both.outer

theorem Assembled.outer {inlined : FileRef → Draft Unit}
    (inlines : ∀ file, Outer (fun _ => True) (inlined file)) {draft : Draft Value}
    (assembled : planner.Assembled inlined draft) : Outer (fun _ => True) draft := by
  induction assembled with
  | done | fail | ofSource => exact .silent rfl
  | tried pattern => exact .single trivial rfl rfl
  | @work step works _ => cases step <;> first | exact .single trivial rfl rfl | cases works
  | inlined path => exact inlines _
  | andThen _ _ first rest => exact .andThen first fun value _ => rest value

theorem planWith_outer {inlined : FileRef → Draft Unit}
    (inlines : ∀ file, Outer (fun _ => True) (inlined file)) (command : Command) :
    Outer (fun _ => True) (planner.planWith inlined command) := by
  have switches {steps : List Step} (plain : ∀ step ∈ steps, step.file? = none) :
      Outer (fun _ => True) (planner.planTransaction command steps) := by
    unfold planTransaction
    split
    · exact .silent rfl
    · refine .each fun step member => ?_
      have free := plain step member
      cases step <;> first | exact .single trivial rfl rfl | cases free
  unfold planWith
  split
  · exact switches (by decide)
  · exact switches (by simp [Step.file?])
  · exact switches (by simp [Step.file?])
  · unfold planList
    split
    · exact .single trivial rfl rfl
    · exact .silent rfl
  · exact withSteps_outer ((planner.planSeeds_assembled command).outer inlines) trivial
  · exact withSteps_outer ((planner.planScript_assembled command).outer inlines) trivial
  · split
    · exact withSteps_outer ((planner.planObjects_assembled command _).outer inlines) trivial
    · exact .silent rfl

/-- Of a file that is inlined, only the mark that it is entered stands outside. -/
theorem inlineFile_outer {file : FileRef} (held : kind (.step (.enterFile file))) (depth : Nat) :
    Outer kind (planner.inlineFile depth file) := by
  induction depth generalizing file kind with
  | zero => exact .silent rfl
  | succ depth ih =>
      unfold inlineFile
      simp only [Draft.bind_eq]
      refine .andThen (.silent rfl) fun text _ => ?_
      split
      · exact .silent rfl
      · rename_i commands _
        split
        · exact .silent rfl
        · -- the commands of the file may come to anything
          have inside : Outer (fun _ => True)
              (Draft.each (planner.planWith (planner.inlineFile depth)) commands) :=
            .each fun command _ => planWith_outer (fun inner => ih trivial) command
          exact inside.enclosed held

end Planner

namespace Plan

variable {State : Type} {database : Option (Database State)} {outcome : Except PlanError Unit}

/-- A step of a plan is that of an event with the same marks before it, or shows a list. -/
theorem settle_split {events : List Draft.Event} {state : State} {before after : List Step}
    {step : Step}
    (whole : (settle database outcome events state).1.steps = before ++ step :: after) :
    ∃ earlier event later, events = earlier ++ event :: later ∧
      (event = .step step ∨ step.isList = true) ∧
      Draft.entered earlier = before.countP Step.isEnter ∧
      Draft.left earlier = before.countP Step.isLeave := by
  induction events generalizing before state database with
  | nil => simp [settle] at whole
  | cons event rest ih =>
      cases event with
      | tried pattern =>
          obtain ⟨earlier, event, later, rfl, same, entered, left⟩ := ih whole
          exact ⟨.tried pattern :: earlier, event, later, rfl, same, entered, left⟩
      | step first =>
          cases before with
          | nil =>
              obtain ⟨rfl, -⟩ := List.cons.inj whole
              exact ⟨[], _, rest, rfl, .inl rfl, rfl, rfl⟩
          | cons _ before =>
              obtain ⟨rfl, inner⟩ := List.cons.inj whole
              obtain ⟨earlier, event, later, rfl, same, entered, left⟩ := ih inner
              refine ⟨.step first :: earlier, event, later, rfl, same, ?_, ?_⟩
              · rw [List.countP_cons, ← entered]
                exact List.countP_cons
              · rw [List.countP_cons, ← left]
                exact List.countP_cons
      | listing kind command =>
          cases database with
          | none => simp [settle, fail] at whole
          | some database =>
              unfold settle at whole
              dsimp only at whole
              split at whole
              · simp [fail] at whole
              · cases before with
                | nil =>
                    obtain ⟨rfl, -⟩ := List.cons.inj whole
                    exact ⟨[], _, rest, rfl, .inr rfl, rfl, rfl⟩
                | cons _ before =>
                    obtain ⟨rfl, inner⟩ := List.cons.inj whole
                    obtain ⟨earlier, event, later, rfl, same, entered, left⟩ := ih inner
                    refine ⟨.listing kind command :: earlier, event, later, rfl, same, ?_, ?_⟩
                    · rw [List.countP_cons, ← entered]
                      rfl
                    · rw [List.countP_cons, ← left]
                      rfl

end Plan

end Rollout
