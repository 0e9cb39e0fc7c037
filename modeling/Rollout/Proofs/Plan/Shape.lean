import Rollout.Proofs.Plan.Assembled
import Rollout.Proofs.Plan.Draft

/-!
The shape of plans. Whatever the tree holds and whatever schemas a database shows, the steps that a
command comes to are one block: every planning function yields a row of items, and the files of
commands that are inlined nest as deep as the planner lets them.
-/

namespace Rollout

namespace Draft

open Step (Row)

variable {Value Next : Type}

/-- The steps that events come to, whatever schemas a database shows. -/
inductive Becomes : List Event → List Step → Prop where
  | nil : Becomes [] []
  | tried (pattern : String) {events : List Event} {steps : List Step}
      (rest : Becomes events steps) : Becomes (.tried pattern :: events) steps
  | step (step : Step) {events : List Event} {steps : List Step} (rest : Becomes events steps) :
      Becomes (.step step :: events) (step :: steps)
  | listing (kind : ListKind) (command : Command) (schemas : List String) {events : List Event}
      {steps : List Step} (rest : Becomes events steps) :
      Becomes (.listing kind command :: events) (.list kind schemas :: steps)

theorem Becomes.of_append {first second : List Event} {steps : List Step}
    (becomes : Becomes (first ++ second) steps) :
    ∃ before after, steps = before ++ after ∧ Becomes first before ∧ Becomes second after := by
  induction first generalizing steps with
  | nil => exact ⟨[], steps, rfl, .nil, becomes⟩
  | cons event rest ih =>
      cases becomes with
      | tried pattern later =>
          obtain ⟨before, after, rfl, head, tail⟩ := ih later
          exact ⟨before, after, rfl, .tried pattern head, tail⟩
      | step step later =>
          obtain ⟨before, after, rfl, head, tail⟩ := ih later
          exact ⟨step :: before, after, rfl, .step step head, tail⟩
      | listing kind command schemas later =>
          obtain ⟨before, after, rfl, head, tail⟩ := ih later
          exact ⟨.list kind schemas :: before, after, rfl, .listing kind command schemas head, tail⟩

theorem Becomes.ne_nil {events : List Event} {steps : List Step} (becomes : Becomes events steps)
    (filled : events.any (·.isStep) = true) : steps ≠ [] := by
  induction becomes with
  | nil => cases filled
  | tried pattern _ ih =>
      apply ih
      simpa [Event.isStep] using filled
  | step step _ _ => exact List.cons_ne_nil _ _
  | listing kind command schemas _ _ => exact List.cons_ne_nil _ _

/-- What the draft comes to, if it comes to an end, has the shape. -/
def Yields (shape : List Step → Prop) (draft : Draft Value) : Prop :=
  ∀ value steps, draft.outcome = .ok value → Becomes draft.events steps → shape steps

namespace Yields

variable {part first second whole : List Step → Prop}

theorem fail (error : PlanError) : (Draft.fail error : Draft Value).Yields whole := by
  intro value steps ended
  cases ended

theorem quiet {draft : Draft Value} (silent : draft.events = []) (empty : whole []) :
    draft.Yields whole := by
  intro value steps _ becomes
  rw [silent] at becomes
  cases becomes
  exact empty

theorem weaken {draft : Draft Value} (yields : draft.Yields first)
    (follows : ∀ steps, first steps → whole steps) : draft.Yields whole := by
  intro value steps ended becomes
  exact follows steps (yields value steps ended becomes)

theorem done (value : Value) : (Draft.done value).Yields (Row part) := quiet rfl .nil

theorem ofSource (result : Except SourceError Value) : (Draft.ofSource result).Yields (Row part) :=
  quiet rfl .nil

theorem tried (pattern : String) : (Draft.tried pattern).Yields (Row part) := by
  intro value steps _ becomes
  cases becomes with
  | tried _ rest =>
      cases rest
      exact .nil

theorem step {step : Step} (held : whole [step]) : (Draft.step step).Yields whole := by
  intro value steps _ becomes
  cases becomes with
  | step _ rest =>
      cases rest
      exact held

/-- One draft and then another, with what the shapes of the two make together. -/
theorem join {draft : Draft Value} {next : Value → Draft Next} (start : draft.Yields first)
    (rest : ∀ value, (next value).Yields second)
    (joins : ∀ before after, first before → second after → whole (before ++ after)) :
    (draft.andThen next).Yields whole := by
  intro result steps ended becomes
  cases outcome : draft.outcome with
  | error error => simp [Draft.andThen, outcome] at ended
  | ok value =>
      simp only [Draft.andThen, outcome] at ended becomes
      obtain ⟨before, after, rfl, head, tail⟩ := becomes.of_append
      exact joins before after (start value before outcome head)
        (rest value result after ended tail)

theorem afterQuiet {draft : Draft Value} {next : Value → Draft Next} (silent : draft.events = [])
    (rest : ∀ value, (next value).Yields whole) : (draft.andThen next).Yields whole := by
  have before : draft.Yields (· = []) := quiet silent rfl
  refine join before rest ?_
  rintro _ steps rfl shape
  exact shape

theorem andThen {draft : Draft Value} {next : Value → Draft Next}
    (start : draft.Yields (Row part)) (rest : ∀ value, (next value).Yields (Row part)) :
    (draft.andThen next).Yields (Row part) :=
  join start rest fun _ _ => Row.append

theorem each {draft : Value → Draft Unit} (all : ∀ value, (draft value).Yields (Row part))
    (list : List Value) : (Draft.each draft list).Yields (Row part) := by
  induction list with
  | nil => exact done ()
  | cons value rest ih => exact andThen (all value) fun _ => ih

end Yields

end Draft

namespace Planner

open Draft (Yields)
open Step (Row Item BlockOf Block)

variable (planner : Planner) {inside : List Step → Prop}

variable {planner} in
/-- What is put together from parts is a row of items. -/
theorem Assembled.yields {inlined : FileRef → Draft Unit}
    (inlines : ∀ file, (inlined file).Yields (Item inside)) {Value : Type} {draft : Draft Value}
    (assembled : planner.Assembled inlined draft) : draft.Yields (Row (Item inside)) := by
  induction assembled with
  | done value => exact .done value
  | fail => exact .fail _
  | ofSource result => exact .ofSource result
  | tried pattern => exact .tried pattern
  | work works _ => exact .step (.single (.work _ works))
  | inlined path => exact (inlines _).weaken fun _ => .single
  | andThen _ _ first rest => exact .andThen first rest

/-- A command needs at least one item after it. -/
theorem withSteps_yields (command : Command) {draft : Draft Unit}
    (items : draft.Yields (Row (Item inside))) :
    (withSteps command draft).Yields (BlockOf planner.autoTransaction inside) := by
  intro value steps ended becomes
  unfold withSteps at ended becomes
  dsimp only at ended becomes
  split at ended <;> rename_i outcome
  · cases ended
  · rw [outcome] at becomes
    dsimp only at becomes
    split at ended <;> rename_i filled
    · rw [if_pos filled] at becomes
      cases becomes with
      | step _ rest => exact .command _ (items () _ outcome rest) (rest.ne_nil filled)
    · split at ended <;> cases ended

theorem planTransaction_yields (command : Command) {steps : List Step}
    (shape : planner.autoTransaction = false → BlockOf planner.autoTransaction inside steps) :
    (planner.planTransaction command steps).Yields (BlockOf planner.autoTransaction inside) := by
  unfold planTransaction
  split
  · exact .fail _
  · rename_i manual
    have exact : ∀ list : List Step, (Draft.each Draft.step list).Yields (· = list) := by
      intro list
      induction list with
      | nil => exact .quiet rfl rfl
      | cons step rest ih =>
          have first : (Draft.step step).Yields (· = [step]) := .step rfl
          refine .join first (fun _ => ih) ?_
          rintro _ _ rfl rfl
          rfl
    intro value planned ended becomes
    rw [exact steps value planned ended becomes]
    exact shape (by simpa using manual)

theorem planList_yields (command : Command) :
    (planList command).Yields (BlockOf planner.autoTransaction inside) := by
  unfold planList
  split
  · rename_i kind _
    intro value steps _ becomes
    cases becomes with
    | listing _ _ schemas rest =>
        cases rest
        exact .list kind schemas
  · exact .fail _

theorem planWith_yields {inlined : FileRef → Draft Unit}
    (inlines : ∀ file, (inlined file).Yields (Item inside)) (command : Command) :
    (planner.planWith inlined command).Yields (BlockOf planner.autoTransaction inside) := by
  unfold planWith
  split
  · exact planner.planTransaction_yields command .begin
  · exact planner.planTransaction_yields command (.commit _)
  · exact planner.planTransaction_yields command (.rollback _)
  · exact planner.planList_yields command
  · exact planner.withSteps_yields command ((planner.planSeeds_assembled command).yields inlines)
  · exact planner.withSteps_yields command ((planner.planScript_assembled command).yields inlines)
  · split
    · exact planner.withSteps_yields command ((planner.planObjects_assembled command _).yields inlines)
    · exact .fail _

/-- A file of commands holds the blocks of its commands, between its own marks. -/
theorem inlineFile_yields {depth : Nat}
    (plans : ∀ command, (planner.planWith (planner.inlineFile depth) command).Yields inside)
    (file : FileRef) : (planner.inlineFile (depth + 1) file).Yields (Item (Row inside)) := by
  have enters : (Draft.step (.enterFile file)).Yields (· = [.enterFile file]) := .step rfl
  have leaves : (Draft.step (.leaveFile file)).Yields (· = [.leaveFile file]) := .step rfl
  have blocks : ∀ commands, (Draft.each (planner.planWith (planner.inlineFile depth))
      commands).Yields (Row inside) :=
    .each fun command => (plans command).weaken fun _ => .single
  unfold inlineFile
  simp only [Draft.bind_eq]
  -- reading the file adds no steps, so the marks are the outermost ones
  refine .afterQuiet rfl fun text => ?_
  split
  · exact .fail _
  · rename_i commands _
    split
    · exact .fail _
    · have closes : (Draft.andThen (Draft.each (planner.planWith (planner.inlineFile depth))
          commands) fun _ => Draft.step (.leaveFile file)).Yields
            fun rest => ∃ held, Row inside held ∧ rest = held ++ [.leaveFile file] := by
        refine .join (blocks commands) (fun _ => leaves) ?_
        rintro held _ row rfl
        exact ⟨held, row, rfl⟩
      refine .join enters (fun _ => closes) ?_
      rintro _ _ rfl ⟨held, row, rfl⟩
      exact .file file row

/-- With files of commands that nest at most so deep, every command comes to one block in which
they nest no deeper. -/
theorem planWith_block (depth : Nat) (command : Command) :
    (planner.planWith (planner.inlineFile depth) command).Yields
      (Block planner.autoTransaction depth) := by
  induction depth generalizing command with
  | zero => exact planner.planWith_yields (fun file => .fail _) command
  | succ depth ih =>
      exact planner.planWith_yields (planner.inlineFile_yields ih) command

end Planner

namespace Plan

variable {State : Type} {database : Option (Database State)} {outcome : Except PlanError Unit}

/-- A plan that comes to an end has the steps of its draft, with schemas in the lists. -/
theorem settle_becomes {events : List Draft.Event} {state : State}
    (ended : (settle database outcome events state).1.outcome = .ok ()) :
    outcome = .ok () ∧ Draft.Becomes events (settle database outcome events state).1.steps := by
  induction events generalizing state with
  | nil => exact ⟨ended, .nil⟩
  | cons event rest ih =>
      cases event with
      | tried pattern => exact (ih ended).imp_right (.tried pattern)
      | step step => exact (ih ended).imp_right (.step step)
      | listing kind command =>
          cases database with
          | none => cases ended
          | some database =>
              unfold settle at ended ⊢
              dsimp only at ended ⊢
              split at ended
              · cases ended
              · exact (ih ended).imp_right (.listing kind command _)

end Plan

end Rollout
