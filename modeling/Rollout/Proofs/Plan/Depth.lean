import Rollout.Proofs.Plan.Lands
import Rollout.Proofs.Plan.Outer

/-!
How deep files of commands nest. At no point are more files open than the limit allows, and a limit
that is raised changes nothing but what happens to a file that nested too deep.
-/

namespace Rollout

namespace Draft

variable {Value Next : Type}

/-- At no point is a file open at more levels than these, and in the end none is. -/
structure Nests (levels : Nat) (draft : Draft Value) : Prop where
  bounded : ∀ before after, draft.events = before ++ after → entered before ≤ left before + levels
  closed : ∀ value, draft.outcome = .ok value → entered draft.events ≤ left draft.events

namespace Nests

variable {levels : Nat}

theorem flat {draft : Draft Value} (none : entered draft.events = 0) : Nests levels draft := by
  constructor
  · intro before after whole
    rw [whole, entered_append] at none
    omega
  · intro value _
    omega

theorem andThen {draft : Draft Value} {next : Value → Draft Next} (first : Nests levels draft)
    (rest : ∀ value, Nests levels (next value)) : Nests levels (draft.andThen next) := by
  unfold Draft.andThen
  split <;> rename_i value outcome
  · exact ⟨first.bounded, nofun⟩
  · have even := first.closed value outcome
    have later := rest value
    constructor
    · intro before after whole
      rcases List.append_eq_append_iff.mp whole with ⟨tail, rfl, behind⟩ | ⟨tail, start, -⟩
      · have inside := later.bounded tail after behind
        rw [left_append, entered_append]
        omega
      · exact first.bounded before tail start
    · intro result ended
      have odd := later.closed result ended
      rw [left_append, entered_append]
      omega

theorem each {draft : Value → Draft Unit} (all : ∀ value, Nests levels (draft value))
    (list : List Value) : Nests levels (Draft.each draft list) := by
  induction list with
  | nil => exact flat rfl
  | cons value rest ih => exact andThen (all value) fun _ => ih

section Marks

variable {inner : Draft Unit} (inside : Nests levels inner) (file : FileRef)

include inside

/-- The mark at the end of a file closes a level that its commands leave open. -/
theorem closing_bounded (before after : List Event)
    (whole : (closing file inner).events = before ++ after) :
    entered before ≤ left before + levels := by
  unfold closing Draft.andThen at whole
  split at whole
  · exact inside.bounded before after whole
  · rcases List.append_eq_append_iff.mp whole with ⟨tail, rfl, behind⟩ | ⟨tail, start, -⟩
    · have all := inside.bounded inner.events [] (by simp)
      have mark := congrArg entered behind
      have none : entered (Draft.step (.leaveFile file)).events = 0 := rfl
      rw [none, entered_append] at mark
      rw [left_append, entered_append]
      omega
    · exact inside.bounded before tail start

theorem closing_closed (ended : (closing file inner).outcome = .ok ()) :
    entered (closing file inner).events + 1 ≤ left (closing file inner).events := by
  obtain ⟨_, outcome, -, events⟩ := andThen_ok ended
  have even := inside.closed _ outcome
  have whole : (closing file inner).events = inner.events ++ [.step (.leaveFile file)] := events
  have last : left [.step (.leaveFile file)] = 1 ∧ entered [.step (.leaveFile file)] = 0 :=
    ⟨rfl, rfl⟩
  rw [whole, left_append, entered_append, last.1, last.2]
  omega

/-- Between the marks of a file, everything is one level further down. -/
theorem enclosed :
    Nests (levels + 1) ((Draft.step (.enterFile file)).andThen fun _ => closing file inner) := by
  have more (before : List Event) : left (.step (.enterFile file) :: before) = left before ∧
      entered (.step (.enterFile file) :: before) = 1 + entered before := by
    have mark : left [.step (.enterFile file)] = 0 ∧ entered [.step (.enterFile file)] = 1 :=
      ⟨rfl, rfl⟩
    rw [← List.singleton_append, left_append, entered_append, mark.1, mark.2]
    exact ⟨Nat.zero_add _, rfl⟩
  have whole : ((Draft.step (.enterFile file)).andThen fun _ => closing file inner).events =
      .step (.enterFile file) :: (closing file inner).events := rfl
  constructor
  · intro before after whole
    cases before with
    | nil => exact Nat.zero_le _
    | cons first before =>
        obtain ⟨rfl, rest⟩ := List.cons.inj whole
        have bound := inside.closing_bounded file before after rest
        rw [(more before).1, (more before).2]
        omega
  · intro value ended
    have counts := more (closing file inner).events
    have odd := inside.closing_closed file ended
    rw [whole, counts.1, counts.2]
    omega

end Marks

end Nests

/-- The second draft is the first one; or the first one fails as a file nests too deep, and the
second one goes on from there. -/
inductive Deepens (first second : Draft Value) : Prop where
  | same (alike : first = second)
  | deeper {file : String} (failed : first.outcome = .error (.tooDeep file Planner.depthLimit))
      (begins : first.events <+: second.events)

namespace Deepens

theorem refl (draft : Draft Value) : Deepens draft draft := .same rfl

theorem andThen {first second : Draft Value} {next other : Value → Draft Next}
    (start : Deepens first second) (rest : ∀ value, Deepens (next value) (other value)) :
    Deepens (first.andThen next) (second.andThen other) := by
  unfold Draft.andThen
  cases start with
  | same alike =>
      rw [← alike]
      cases first.outcome with
      | error error => exact refl _
      | ok value =>
          dsimp only
          cases rest value with
          | same alike =>
              rw [alike]
              exact refl _
          | deeper failed begins =>
              exact .deeper failed ((List.prefix_append_right_inj _).mpr begins)
  | deeper failed begins =>
      rw [failed]
      cases second.outcome with
      | error error => exact .deeper rfl begins
      | ok value => exact .deeper rfl (begins.trans (List.prefix_append _ _))

theorem each {first second : Value → Draft Unit}
    (all : ∀ value, Deepens (first value) (second value)) (list : List Value) :
    Deepens (Draft.each first list) (Draft.each second list) := by
  induction list with
  | nil => exact refl _
  | cons value rest ih => exact andThen (all value) fun _ => ih

/-- A draft that comes to its end stays what it is. -/
theorem ended {first second : Draft Value} {value : Value} (deepens : Deepens first second)
    (ended : first.outcome = .ok value) : second = first := by
  cases deepens with
  | same alike => exact alike.symm
  | deeper failed begins => cases failed.symm.trans ended

/-- So does the error of a plan, unless the error is that a file nests too deep. -/
theorem settle {State : Type} {first second : Draft Unit} (deepens : Deepens first second)
    (database : Option (Database State)) (state : State) :
    (∃ file, (first.settle database state).1.outcome =
        .error (.tooDeep file Planner.depthLimit)) ∨
      (second.settle database state).1.outcome = (first.settle database state).1.outcome := by
  cases deepens with
  | same alike => exact .inr (by rw [alike])
  | @deeper file failed begins =>
      obtain ⟨more, whole⟩ := begins
      unfold Draft.settle
      rcases Plan.passes_or_stops database first.events state with
        ⟨steps, after, passes⟩ | ⟨error, after, stops⟩
      · have settled := (passes.settle first.outcome []).2.1
        rw [List.append_nil] at settled
        exact .inl ⟨file, settled.trans failed⟩
      · -- a listing without an answer comes before the file
        have here := (stops.settle first.outcome []).1
        rw [List.append_nil] at here
        rw [here, ← whole]
        exact .inr (stops.settle second.outcome more).1

end Deepens

end Draft

namespace Planner

variable {planner : Planner} {Value : Type}

open Draft (Nests Deepens)

theorem Assembled.nests {levels : Nat} {inlined : FileRef → Draft Unit}
    (inlines : ∀ file, Nests levels (inlined file)) {draft : Draft Value}
    (assembled : planner.Assembled inlined draft) : Nests levels draft := by
  induction assembled with
  | done | fail | ofSource | tried => exact .flat rfl
  | @work step works _ => cases step <;> first | exact .flat rfl | cases works
  | inlined path => exact inlines _
  | andThen _ _ first rest => exact .andThen first rest

theorem withSteps_nests {levels : Nat} {command : Command} {draft : Draft Unit}
    (nests : Nests levels draft) : Nests levels (withSteps command draft) := by
  have both : Nests levels ((Draft.step (.runCommand command.text)).andThen fun _ => draft) :=
    .andThen (.flat rfl) fun _ => nests
  constructor
  · rw [withSteps_events]
    exact both.bounded
  · intro value ended
    rw [withSteps_events]
    refine both.closed () ?_
    cases outcome : draft.outcome with
    | error error => cases (withSteps_failed outcome).symm.trans ended
    | ok result => simp [Draft.andThen, Draft.step, Draft.event, outcome]

theorem planWith_nests {levels : Nat} {inlined : FileRef → Draft Unit}
    (inlines : ∀ file, Nests levels (inlined file)) (command : Command) :
    Nests levels (planner.planWith inlined command) := by
  have switches {steps : List Step} (plain : ∀ step ∈ steps, step.isEnter = false) :
      Nests levels (planner.planTransaction command steps) := by
    refine .flat ?_
    unfold planTransaction
    split
    · rfl
    · have events := Draft.each_step id steps
      simp only [id] at events
      rw [events]
      simpa [Draft.entered, Draft.stepsOf, List.filterMap_map, Draft.Event.step?,
        Function.comp_def] using plain
  unfold planWith
  split
  · exact switches (by decide)
  · exact switches (by simp [Step.isEnter])
  · exact switches (by simp [Step.isEnter])
  · unfold planList
    split <;> exact .flat rfl
  · exact withSteps_nests ((planner.planSeeds_assembled command).nests inlines)
  · exact withSteps_nests ((planner.planScript_assembled command).nests inlines)
  · split
    · exact withSteps_nests ((planner.planObjects_assembled command _).nests inlines)
    · exact .flat rfl

theorem inlineFile_nests (levels : Nat) (file : FileRef) :
    Nests levels (planner.inlineFile levels file) := by
  induction levels generalizing file with
  | zero => exact .flat rfl
  | succ levels ih =>
      unfold inlineFile
      apply Nests.andThen (.flat rfl)
      intro text
      split
      · exact .flat rfl
      · rename_i commands _
        split
        · exact .flat rfl
        · have inner : Nests levels
              (Draft.each (planner.planWith (planner.inlineFile levels)) commands) :=
            .each (planWith_nests ih) commands
          exact inner.enclosed file

section Deeper

variable {inlined deeper : FileRef → Draft Unit}

theorem planSeedFile_deepens (all : ∀ file, Deepens (inlined file) (deeper file))
    (target : Option (String × String)) (path : String) :
    Deepens (planner.planSeedFile inlined target path)
      (planner.planSeedFile deeper target path) := by
  unfold planSeedFile
  dsimp only
  split
  · exact .refl _
  · exact .refl _
  · exact .refl _
  · exact all _
  · exact .refl _

theorem planSchemaSeeds_deepens (all : ∀ file, Deepens (inlined file) (deeper file))
    (command : Command) (schema : String) :
    Deepens (planner.planSchemaSeeds inlined command schema)
      (planner.planSchemaSeeds deeper command schema) :=
  .andThen (.refl _) fun _ => .each (fun path => planSeedFile_deepens all _ path) _

theorem planTableSeeds_deepens (all : ∀ file, Deepens (inlined file) (deeper file))
    (files : List String) :
    Deepens (planner.planTableSeeds inlined files) (planner.planTableSeeds deeper files) :=
  .each (fun path => planSeedFile_deepens all _ path) files

theorem planSeeds_deepens (all : ∀ file, Deepens (inlined file) (deeper file))
    (command : Command) :
    Deepens (planner.planSeeds inlined command) (planner.planSeeds deeper command) := by
  unfold planSeeds
  -- the objects in the order in which they are told apart
  split
  · exact .andThen (.refl _) fun files => .each (planSeedFile_deepens all none) _
  · exact .each (planSchemaSeeds_deepens all command) _
  · exact .andThen (.refl _) fun schemas => .each (planSchemaSeeds_deepens all command) _
  · exact .each (fun name => .andThen (.refl _) fun pair =>
      .andThen (.refl _) fun files => planTableSeeds_deepens all _) _
  · exact .andThen (.refl _) fun schemas =>
      .each (fun schema => .andThen (.refl _) (planTableSeeds_deepens all)) _
  · exact .refl _
  · exact .refl _
  · exact .refl _

theorem withSteps_deepens {command : Command} {first second : Draft Unit}
    (deepens : Deepens first second) :
    Deepens (withSteps command first) (withSteps command second) := by
  cases deepens with
  | same alike => exact .same (congrArg (withSteps command) alike)
  | deeper failed begins =>
      refine .deeper (withSteps_failed failed) ?_
      rw [withSteps_events, withSteps_events]
      exact (List.prefix_cons_inj _).mpr begins

theorem planWith_deepens (all : ∀ file, Deepens (inlined file) (deeper file))
    (command : Command) :
    Deepens (planner.planWith inlined command) (planner.planWith deeper command) := by
  unfold planWith
  split
  case h_5 => exact withSteps_deepens (planSeeds_deepens all command)
  all_goals exact .refl _

end Deeper

/-- With room for more levels, a file is inlined as before, or goes on where it failed. -/
theorem inlineFile_deepens (levels more : Nat) (file : FileRef) :
    Deepens (planner.inlineFile levels file) (planner.inlineFile (levels + more) file) := by
  induction levels generalizing file with
  | zero => exact .deeper rfl List.nil_prefix
  | succ levels ih =>
      rw [Nat.succ_add]
      unfold inlineFile
      apply Deepens.andThen (.refl _)
      intro text
      split
      · exact .refl _
      · split
        · exact .refl _
        · exact .andThen (.refl _) fun _ =>
            .andThen (.each (planWith_deepens ih) _) fun _ => .refl _

theorem planWith_inline_deepens (levels more : Nat) (command : Command) :
    Deepens (planner.planWith (planner.inlineFile levels) command)
      (planner.planWith (planner.inlineFile (levels + more)) command) :=
  planWith_deepens (inlineFile_deepens levels more) command

/-- A command in a file that comes to its end is planned as it would be by itself. -/
theorem plan_of_inner {levels : Nat} (room : levels ≤ depthLimit) {command : Command}
    (ended : (planner.planWith (planner.inlineFile levels) command).outcome = .ok ()) :
    planner.plan command = planner.planWith (planner.inlineFile levels) command := by
  obtain ⟨more, whole⟩ := Nat.exists_eq_add_of_le room
  unfold plan
  rw [whole]
  exact (planWith_inline_deepens levels more command).ended ended

end Planner

namespace Plan

variable {State : Type} {database : Option (Database State)}

/-- The steps of a plan are what the first events come to, all of them if it comes to its end. -/
theorem settle_begins (outcome : Except PlanError Unit) (events : List Draft.Event)
    (state : State) : ∃ first rest middle, events = first ++ rest ∧
      Passes database first state (settle database outcome events state).1.steps middle := by
  induction events generalizing state with
  | nil => exact ⟨[], [], state, rfl, .nil state⟩
  | cons event rest ih =>
      have onward {made : List Step} {middle : State}
          (comes : event.Comes database state made middle) :
          ∃ first later last, event :: rest = first ++ later ∧ Passes database first state
            (settle database outcome (event :: rest) state).1.steps last := by
        obtain ⟨first, later, last, rfl, passes⟩ := ih middle
        rw [(settle_cons comes outcome _).1]
        exact ⟨event :: first, later, last, rfl, .cons comes passes⟩
      cases event with
      | tried pattern => exact onward (.tried pattern state)
      | step step => exact onward (.step step state)
      | listing kind command =>
          cases database with
          | none => exact ⟨[], _, state, rfl, .nil state⟩
          | some own =>
              cases asked : own.perform .schemaNames state with
              | mk answer next =>
                  cases answer with
                  | error error =>
                      have none : (settle (some own) outcome (.listing kind command :: rest)
                          state).1.steps = [] := by
                        simp [settle, asked, fail]
                      rw [none]
                      exact ⟨[], _, state, rfl, .nil state⟩
                  | ok names => exact onward (.listing rfl asked kind command)

namespace Passes

variable {events : List Draft.Event} {steps : List Step} {state after : State}

theorem counts (passes : Passes database events state steps after) :
    Draft.entered events = steps.countP Step.isEnter ∧
      Draft.left events = steps.countP Step.isLeave := by
  induction passes with
  | nil => exact ⟨rfl, rfl⟩
  | @cons event rest _ _ _ made _ comes _ ih =>
      have one : Draft.entered [event] = made.countP Step.isEnter ∧
          Draft.left [event] = made.countP Step.isLeave := by
        cases comes <;> exact ⟨rfl, rfl⟩
      rw [← List.singleton_append, Draft.entered_append, Draft.left_append, one.1, one.2, ih.1,
        ih.2, List.countP_append, List.countP_append]
      exact ⟨rfl, rfl⟩

/-- The first steps are what the first events come to. -/
theorem of_steps {before late : List Step}
    (passes : Passes database events state (before ++ late) after) :
    ∃ first rest middle, events = first ++ rest ∧ Passes database first state before middle := by
  generalize whole : before ++ late = steps at passes
  induction passes generalizing before with
  | nil state =>
      obtain ⟨rfl, rfl⟩ := List.append_eq_nil_iff.mp whole
      exact ⟨[], [], state, rfl, .nil state⟩
  | @cons event list state middle last made steps comes _ ih =>
      cases before with
      | nil => exact ⟨[], _, state, rfl, .nil state⟩
      | cons step before =>
          -- an event comes to one step or to none
          have parts : ∃ others, step :: before = made ++ others ∧ others ++ late = steps := by
            cases comes with
            | tried => exact ⟨step :: before, rfl, whole⟩
            | step | listing =>
                obtain ⟨rfl, rest⟩ := List.cons.inj whole
                exact ⟨before, rfl, rest⟩
          obtain ⟨others, split, rest⟩ := parts
          obtain ⟨first, later, ended, rfl, start⟩ := ih rest
          rw [split]
          exact ⟨event :: first, later, ended, rfl, .cons comes start⟩

end Passes

end Plan

namespace Planner

variable {planner : Planner} {State : Type}

/-- However a plan ends, at no point are more files open than the limit allows. -/
theorem plan_bounded (command : Command) (database : Option (Database State)) (state : State)
    {before after : List Step}
    (whole : ((planner.plan command).settle database state).1.steps = before ++ after) :
    before.countP Step.isEnter ≤ before.countP Step.isLeave + depthLimit := by
  have nests : Draft.Nests depthLimit (planner.plan command) :=
    planWith_nests (inlineFile_nests depthLimit) command
  obtain ⟨first, rest, _, events, passes⟩ :=
    Plan.settle_begins (planner.plan command).outcome (planner.plan command).events state
  rw [Draft.settle] at whole
  rw [whole] at passes
  obtain ⟨early, late, _, rfl, start⟩ := passes.of_steps
  rw [List.append_assoc] at events
  have bound := nests.bounded early (late ++ rest) events
  rwa [start.counts.1, start.counts.2] at bound

end Planner

end Rollout
