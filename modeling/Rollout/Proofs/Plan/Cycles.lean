import Mathlib.Logic.Relation
import Rollout.Proofs.Plan.Depth
import Rollout.Proofs.Plan.Directories
import Rollout.Proofs.Plan.Filters
import Rollout.Proofs.Plan.Selection

/-!
Planning comes to an end. Files of commands nest no deeper than the limit, so one that leads back to
itself cannot be inlined; wildcards of a pattern are used up one by one.
-/

namespace Rollout

namespace Planner

variable {planner : Planner} {command : Command} {path next : String}

/-- The command selects a file of commands among the seeds. -/
structure Takes (planner : Planner) (command : Command) (path : String) : Prop where
  root : command.root = "seed"
  selected : path ∈ planner.selection command
  ends : Path.extension? path = some "ddsl"

/-- A command in the one file of commands selects the other. -/
inductive LeadsTo (planner : Planner) (path next : String) : Prop where
  | by {text : String} {commands : List Command} {command : Command}
      (read : planner.snapshot.read path = .ok text)
      (parsed : Command.parse planner.grammar text = .ok commands) (member : command ∈ commands)
      (takes : planner.Takes command next) : LeadsTo planner path next

/-- The files of commands that the command leads to, at any depth, come back to one of them from
within itself. -/
inductive Loops (planner : Planner) (command : Command) : Prop where
  | at {first path : String} (takes : planner.Takes command first)
      (led : Relation.ReflTransGen planner.LeadsTo first path)
      (cycle : Relation.TransGen planner.LeadsTo path path) : Loops planner command

theorem Takes.named (takes : planner.Takes command path) : command.SeedsFiles := by
  have selected := takes.selected
  unfold selection at selected
  dsimp only at selected
  split at selected
  case h_6 => cases selected
  all_goals
    rename_i object
    unfold Command.SeedsFiles
    rw [object]
    decide

section Landing

variable {State : Type} {database : Option (Database State)} {state after : State}
  {steps : List Step} {inlined : FileRef → Draft Unit}

/-- A command that comes to its end has inlined the files of commands that it selects. -/
theorem Takes.lands (takes : planner.Takes command path)
    (lands : (planner.planWith inlined command).Lands database state () steps after) :
    ∃ before made behind,
      (inlined (planner.file path)).Lands database before () made behind := by
  rw [planWith_seed inlined takes.root] at lands
  obtain ⟨rest, -, later⟩ := withSteps_lands lands
  obtain ⟨before, made, behind, target, -, landed⟩ :=
    (planSeeds_lands takes.named later).exists_of_mem takes.selected
  unfold planSeedFile at landed
  rw [takes.ends] at landed
  exact ⟨before, made, behind, landed⟩

/-- A file that is inlined has room for those that it leads to. -/
theorem LeadsTo.lands (leads : planner.LeadsTo path next) {levels : Nat}
    (lands : (planner.inlineFile levels (planner.file path)).Lands database state () steps after) :
    ∃ fewer before made behind, levels = fewer + 1 ∧
      (planner.inlineFile fewer (planner.file next)).Lands database before () made behind := by
  obtain ⟨read, parsed, member, takes⟩ := leads
  obtain ⟨fewer, text, commands, inner, rfl, same, found, -, each⟩ := inlineFile_lands lands
  cases read.symm.trans same
  cases parsed.symm.trans found
  obtain ⟨_, _, _, landed⟩ := each.exists_of_mem member
  obtain ⟨before, made, behind, inside⟩ := takes.lands landed
  exact ⟨fewer, before, made, behind, rfl, inside⟩

/-- A file that leads back to itself is not inlined to its end, at however many levels. -/
theorem cycle_not_lands (cycle : Relation.TransGen planner.LeadsTo path path) (levels : Nat) :
    ¬ (planner.inlineFile levels (planner.file path)).Lands database state () steps after := by
  -- the next file on the way leads back to itself too, and has less room
  induction levels generalizing path state steps after with
  | zero =>
      intro lands
      cases lands.ended
  | succ levels ih =>
      intro lands
      obtain ⟨next, leads, back⟩ := Relation.TransGen.head'_iff.mp cycle
      obtain ⟨fewer, _, _, _, same, landed⟩ := leads.lands lands
      cases same
      exact ih (Relation.TransGen.tail' back leads) landed

theorem led_not_lands {last : String} (led : Relation.ReflTransGen planner.LeadsTo path last)
    (cycle : Relation.TransGen planner.LeadsTo last last) (levels : Nat) :
    ¬ (planner.inlineFile levels (planner.file path)).Lands database state () steps after := by
  induction led using Relation.ReflTransGen.head_induction_on generalizing levels state steps
      after with
  | refl => exact cycle_not_lands cycle levels
  | head leads _ ih =>
      intro lands
      obtain ⟨fewer, _, _, _, -, landed⟩ := leads.lands lands
      exact ih fewer landed

theorem Loops.not_lands (loops : planner.Loops command) (levels : Nat) :
    ¬ (planner.planWith (planner.inlineFile levels) command).Lands database state () steps
      after := by
  intro lands
  obtain ⟨takes, led, cycle⟩ := loops
  obtain ⟨_, _, _, landed⟩ := takes.lands lands
  exact led_not_lands led cycle levels landed

/-- A command whose files of commands come back to one of them fails, and nothing is appended. The
error is that a file nests too deep, or it is the same for every limit that is no lower. -/
theorem Loops.fails (loops : planner.Loops command) (database : Option (Database State))
    (state : State) (context : Context) : ∃ error,
      ((planner.plan command).settle database state).1.outcome = .error error ∧
      (context.takePlan ((planner.plan command).settle database state).1).1 = .error error ∧
      (context.takePlan ((planner.plan command).settle database state).1).2.queue =
        context.queue ∧
      ((∃ file, error = .tooDeep file depthLimit) ∨ ∀ levels, depthLimit ≤ levels →
        ((planner.planWith (planner.inlineFile levels) command).settle database state).1.outcome =
          .error error) := by
  cases outcome : ((planner.plan command).settle database state).1.outcome with
  | ok value =>
      have lands := Draft.lands_of_settle outcome
      exact absurd lands (loops.not_lands depthLimit)
  | error error =>
      obtain ⟨failed, kept⟩ := context.takePlan_error outcome
      refine ⟨error, rfl, failed, kept, ?_⟩
      by_cases deep : ∃ file, error = .tooDeep file depthLimit
      · exact .inl deep
      · refine .inr fun levels room => ?_
        obtain ⟨more, rfl⟩ := Nat.exists_eq_add_of_le room
        have deepens : (planner.plan command).Deepens
            (planner.planWith (planner.inlineFile (depthLimit + more)) command) :=
          planWith_inline_deepens depthLimit more command
        rcases deepens.settle database state with ⟨file, tooDeep⟩ | same
        · rw [outcome] at tooDeep
          cases tooDeep
          exact absurd ⟨file, rfl⟩ deep
        · exact same.trans outcome

/-- Whatever the files of commands hold, planning comes to an end: at no point are more files open
than the limit allows, and patterns are expanded with fewer wildcards each time. A command whose
files come back to one of them from within itself fails and leaves the queue as it was; the error is
that a file nests too deep, unless there is another one that no limit would change. -/
theorem plan_ends (orderly : planner.snapshot.Orderly) (command : Command)
    (database : Option (Database State)) (state : State) (context : Context) :
    (∀ before after, ((planner.plan command).settle database state).1.steps = before ++ after →
      before.countP Step.isEnter ≤ before.countP Step.isLeave + depthLimit) ∧
    (∀ pattern, Plan.Expands planner.snapshot pattern
      (Plan.expandDirectories planner.snapshot pattern)) ∧
    (planner.Loops command → ∃ error,
      ((planner.plan command).settle database state).1.outcome = .error error ∧
      (context.takePlan ((planner.plan command).settle database state).1).1 = .error error ∧
      (context.takePlan ((planner.plan command).settle database state).1).2.queue =
        context.queue ∧
      ((∃ file, error = .tooDeep file depthLimit) ∨ ∀ levels, depthLimit ≤ levels →
        ((planner.planWith (planner.inlineFile levels) command).settle database state).1.outcome =
          .error error)) := by
  refine ⟨fun before after whole => plan_bounded command database state whole,
    Plan.expandDirectories_expands orderly, fun loops => loops.fails database state context⟩

end Landing

/-- Two files of commands that lead to each other, one in the seeds of the database and one in those
of a schema. -/
def looping : Planner where
  grammar := Grammar.builtin
  snapshot := .disk ⟨".", .node (.folder (.folder "schemas"
      (.folder "app" (.folder "seeds" (.file "b.ddsl" (.text "seed database") .nil) .nil) .nil)
    (.folder "seeds" (.file "a.ddsl" (.text "seed schema app") .nil) .nil)))⟩
  ref := none
  autoTransaction := true

def seedApp : Command :=
  ⟨"seed", ["seed", "schema"], some "schema", none, [⟨"schema-names", .list ["app"]⟩], none,
    "seed schema app", 1⟩

theorem looping_loops : looping.Loops seedDatabase := by
  have top : looping.Takes seedDatabase "seeds/a.ddsl" := ⟨rfl, by decide +kernel, by decide⟩
  have inner : looping.Takes seedApp "schemas/app/seeds/b.ddsl" :=
    ⟨rfl, by decide +kernel, by decide⟩
  have there : looping.LeadsTo "seeds/a.ddsl" "schemas/app/seeds/b.ddsl" := by
    have read : looping.snapshot.read "seeds/a.ddsl" = .ok "seed schema app" := by decide +kernel
    have parsed : Command.parse looping.grammar "seed schema app" = .ok [seedApp] := by
      decide +kernel
    exact .by read parsed List.mem_cons_self inner
  have back : looping.LeadsTo "schemas/app/seeds/b.ddsl" "seeds/a.ddsl" := by
    have read : looping.snapshot.read "schemas/app/seeds/b.ddsl" = .ok "seed database" := by
      decide +kernel
    have parsed : Command.parse looping.grammar "seed database" = .ok [seedDatabase] := by
      decide +kernel
    exact .by read parsed List.mem_cons_self top
  exact .at top .refl (.tail (.single there) back)

theorem plan_ends_looping :
    looping.snapshot.Orderly ∧ looping.Loops seedDatabase ∧
      (∀ before after,
        ((looping.plan seedDatabase).settle (none : Option (Database Unit)) ()).1.steps =
          before ++ after →
        before.countP Step.isEnter ≤ before.countP Step.isLeave + depthLimit) ∧
      (∀ pattern, Plan.Expands looping.snapshot pattern
        (Plan.expandDirectories looping.snapshot pattern)) ∧
      ∃ error,
        ((looping.plan seedDatabase).settle (none : Option (Database Unit)) ()).1.outcome =
          .error error ∧
        ((∃ file, error = .tooDeep file depthLimit) ∨ ∀ levels, depthLimit ≤ levels →
          ((looping.planWith (looping.inlineFile levels) seedDatabase).settle
            (none : Option (Database Unit)) ()).1.outcome = .error error) := by
  have orderly : looping.snapshot.Orderly := by
    rintro folder ⟨⟩
    decide
  obtain ⟨bounded, expands, fails⟩ :=
    plan_ends orderly seedDatabase (none : Option (Database Unit)) () {}
  obtain ⟨error, failed, -, -, deep⟩ := fails looping_loops
  exact ⟨orderly, looping_loops, bounded, expands, error, failed, deep⟩

end Planner

end Rollout
