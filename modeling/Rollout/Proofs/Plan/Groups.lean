import Rollout.Proofs.Plan.Answers
import Rollout.Proofs.Plan.Depth
import Rollout.Proofs.Plan.Targets

/-!
What seed files come to. Each file that a command selects becomes one group of steps, after what its
extension says; and wherever rows are loaded, the path of their file names the table.
-/

namespace Rollout

namespace Planner

variable {planner : Planner} {command : Command} {State : Type}
  {database : Option (Database State)} {state after : State} {steps : List Step}

/-- The command has a plan with these steps, which leaves the database in a state. -/
structure PlansTo (planner : Planner) (database : Option (Database State)) (command : Command)
    (state : State) (steps : List Step) (after : State) : Prop where
  ended : ((planner.plan command).settle database state).1.outcome = .ok ()
  steps : ((planner.plan command).settle database state).1.steps = steps
  after : ((planner.plan command).settle database state).2 = after

/-- The steps for one seed file, after its extension. Those for the commands in a file stand between
the marks that it is entered and left. -/
inductive SeedGroup (planner : Planner) (database : Option (Database State)) (path : String) :
    State → List Step → State → Prop where
  | script (ends : Path.extension? path = some "sql") (state : State) :
      SeedGroup planner database path state [.execFile (planner.file path)] state
  | shell (ends : Path.extension? path = some "sh") (state : State) :
      SeedGroup planner database path state [.shellFile (planner.file path)] state
  | rows (ends : Path.extension? path = some "csv") {schema table : String}
      (targets : Path.Targets path schema table) (state : State) :
      SeedGroup planner database path state [.loadCsv (planner.file path) schema table] state
  | commands (ends : Path.extension? path = some "ddsl") {text : String} {commands : List Command}
      (read : planner.snapshot.read path = .ok text)
      (parsed : Command.parse planner.grammar text = .ok commands)
      {state after : State} {inner : List Step}
      (planned : Plan.Sequence (planner.PlansTo database) commands state inner after) :
      SeedGroup planner database path state
        (.enterFile (planner.file path) :: inner ++ [.leaveFile (planner.file path)]) after

theorem PlansTo.of_lands {draft : Draft Unit} (same : planner.plan command = draft)
    (lands : draft.Lands database state () steps after) :
    planner.PlansTo database command state steps after := by
  have settled := lands.passes.settle draft.outcome []
  rw [List.append_nil] at settled
  obtain ⟨planned, outcome, left⟩ := settled
  subst same
  exact ⟨outcome.trans lands.ended, planned.trans (List.append_nil steps), left⟩

theorem Seeded.group (tidy : planner.snapshot.Tidy) (orderly : planner.snapshot.Orderly)
    (understood : command.Understood) {levels : Nat} (room : levels ≤ depthLimit) {path : String}
    (seeded : planner.Seeded (planner.inlineFile levels) command database path state steps after) :
    planner.SeedGroup database path state steps after := by
  obtain ⟨target, assigns, lands⟩ := seeded
  unfold planSeedFile at lands
  dsimp only at lands
  split at lands
  · rename_i ends
    obtain ⟨rfl, rfl⟩ := lands.of_step
    exact .script ends _
  · rename_i ends
    obtain ⟨rfl, rfl⟩ := lands.of_step
    exact .shell ends _
  · rename_i schema table ends
    obtain ⟨rfl, rfl⟩ := lands.of_step
    exact .rows ends (assigns.targets tidy orderly understood ends rfl) _
  · rename_i ends
    obtain ⟨fewer, text, commands, inner, rfl, read, parsed, rfl, each⟩ := inlineFile_lands lands
    refine .commands ends read parsed (each.weaken fun command _ _ _ _ landed => ?_)
    exact .of_lands (plan_of_inner (Nat.le_of_succ_le room) landed.ended) landed
  · cases lands.ended

/-- Wherever the steps load rows, the path of the file names the table. -/
def Loads (steps : List Step) : Prop :=
  ∀ file schema table, .loadCsv file schema table ∈ steps → Path.Targets file.path schema table

/-- No event of the draft loads rows. -/
def Rowless (draft : Draft Unit) : Prop :=
  ∀ file schema table, .step (.loadCsv file schema table) ∉ draft.events

theorem Rowless.loads {draft : Draft Unit} (rowless : Rowless draft)
    (lands : draft.Lands database state () steps after) : Loads steps := by
  intro file schema table member
  obtain ⟨event, among, _, _, _, comes, made⟩ := lands.passes.mem_steps member
  cases comes with
  | tried => cases made
  | step =>
      obtain rfl := List.mem_singleton.mp made
      exact absurd among (rowless file schema table)
  | listing => cases List.mem_singleton.mp made

theorem planTransaction_rowless {switches : List Step}
    (plain : ∀ step ∈ switches, step.file? = none) :
    Rowless (planner.planTransaction command switches) := by
  intro file schema table member
  unfold planTransaction at member
  split at member
  · cases member
  · obtain ⟨step, among, same⟩ := Draft.mem_each member
    cases List.mem_singleton.mp same
    cases plain _ among

theorem planScript_rowless : Rowless (planner.planScript command) := by
  intro file schema table member
  unfold planScript at member
  split at member
  · cases List.mem_singleton.mp member
  · rcases Draft.mem_andThen member with tried | ⟨_, -, later⟩
    · cases List.mem_singleton.mp tried
    · rcases Draft.mem_andThen later with none | ⟨_, -, last⟩
      · cases none
      · split at last
        · cases List.mem_singleton.mp last
        · cases last
  · cases member

theorem planObjects_rowless (tidy : planner.snapshot.Tidy) (orderly : planner.snapshot.Orderly)
    (understood : command.Understood) {verb : Verb}
    (named : Command.namesObject command.object command.clause
      (command.arguments.map (·.slot)) = true) :
    Rowless (planner.planObjects command verb) := by
  intro file schema table member
  rcases (planObjects_answers tidy orderly understood named).plain _ member with
    ⟨pattern, tried⟩ | ⟨path, ran⟩
  · cases tried
  · cases ran

theorem planSeeds_rowless (other : ¬ command.SeedsFiles) (inlined : FileRef → Draft Unit) :
    Rowless (planner.planSeeds inlined command) := by
  unfold Command.SeedsFiles at other
  unfold planSeeds
  split
  case h_6 =>
    split
    · exact fun file schema table member => by cases List.mem_singleton.mp member
    · exact fun file schema table member => by cases member
  case h_7 => exact planScript_rowless
  case h_8 => exact fun file schema table member => by cases member
  all_goals
    rename_i object
    rw [object] at other
    exact absurd (by decide) other

theorem Seeded.loads (tidy : planner.snapshot.Tidy) (orderly : planner.snapshot.Orderly)
    (understood : command.Understood) {inlined : FileRef → Draft Unit}
    (inlines : ∀ file state steps after,
      (inlined file).Lands database state () steps after → Loads steps) {path : String}
    (seeded : planner.Seeded inlined command database path state steps after) : Loads steps := by
  obtain ⟨target, assigns, lands⟩ := seeded
  unfold planSeedFile at lands
  dsimp only at lands
  intro file schema table member
  split at lands
  · obtain ⟨rfl, rfl⟩ := lands.of_step
    cases List.mem_singleton.mp member
  · obtain ⟨rfl, rfl⟩ := lands.of_step
    cases List.mem_singleton.mp member
  · rename_i ends
    obtain ⟨rfl, rfl⟩ := lands.of_step
    cases List.mem_singleton.mp member
    exact assigns.targets tidy orderly understood ends rfl
  · exact inlines _ _ _ _ lands file schema table member
  · cases lands.ended

theorem withSteps_loads {draft : Draft Unit}
    (loads : ∀ steps, draft.Lands database state () steps after → Loads steps)
    (lands : (withSteps command draft).Lands database state () steps after) : Loads steps := by
  obtain ⟨rest, rfl, later⟩ := withSteps_lands lands
  intro file schema table member
  rcases List.mem_cons.mp member with same | among
  · cases same
  · exact loads rest later file schema table among

theorem planWith_loads (tidy : planner.snapshot.Tidy) (orderly : planner.snapshot.Orderly)
    {inlined : FileRef → Draft Unit} (inlines : ∀ file state steps after,
      (inlined file).Lands database state () steps after → Loads steps)
    (understood : command.Understood)
    (lands : (planner.planWith inlined command).Lands database state () steps after) :
    Loads steps := by
  have plannable := understood.plannable
  unfold Command.isPlannable at plannable
  unfold planWith at lands
  split at lands
  · exact (planTransaction_rowless (by decide)).loads lands
  · exact (planTransaction_rowless (by simp [Step.file?])).loads lands
  · exact (planTransaction_rowless (by simp [Step.file?])).loads lands
  · have rowless : Rowless (planList command) := by
      intro file schema table member
      unfold planList at member
      split at member
      · cases List.mem_singleton.mp member
      · cases member
    exact rowless.loads lands
  · refine withSteps_loads (fun rest landed => ?_) lands
    by_cases named : command.SeedsFiles
    · intro file schema table member
      obtain ⟨path, -, _, _, _, seeded, made⟩ := (planSeeds_lands named landed).mem_steps member
      exact seeded.loads tidy orderly understood inlines file schema table made
    · exact (planSeeds_rowless named inlined).loads landed
  · exact withSteps_loads (fun rest => planScript_rowless.loads) lands
  · -- only verbs are left
    have verbal : ((Verb.ofName? command.root).isSome &&
        Command.namesObject command.object command.clause
          (command.arguments.map (·.slot))) = true := by
      split at plannable <;> first | exact plannable | contradiction
    have named := (Bool.and_eq_true_iff.mp verbal).2
    split at lands
    · exact withSteps_loads
        (fun rest => (planObjects_rowless tidy orderly understood named).loads) lands
    · cases lands.ended

/-- Files in files included, rows are loaded into the tables that their paths name. -/
theorem inlineFile_loads (grammar : planner.grammar = Grammar.builtin)
    (tidy : planner.snapshot.Tidy) (orderly : planner.snapshot.Orderly) (levels : Nat)
    (file : FileRef) (state : State) (steps : List Step) (after : State)
    (lands : (planner.inlineFile levels file).Lands database state () steps after) :
    Loads steps := by
  induction levels generalizing file state steps after with
  | zero => cases lands.ended
  | succ levels ih =>
      obtain ⟨fewer, text, commands, inner, same, -, parsed, rfl, each⟩ := inlineFile_lands lands
      cases same
      rw [grammar] at parsed
      intro other schema table member
      have within : .loadCsv other schema table ∈ inner := by simpa using member
      obtain ⟨command, among, _, _, _, landed, made⟩ := each.mem_steps within
      exact planWith_loads tidy orderly ih (Command.understood_of_parse parsed among) landed
        other schema table made

/-- A command that seeds from files, and comes to its end, is planned as itself and one group of
steps for each file that it selects, in order. Wherever rows are loaded, in files of commands too,
the path of the file names the table. -/
theorem plan_seeds_groups (grammar : planner.grammar = Grammar.builtin)
    (tidy : planner.snapshot.Tidy) (orderly : planner.snapshot.Orderly) {text : String}
    {commands : List Command} (parsed : Command.parse Grammar.builtin text = .ok commands)
    (member : command ∈ commands) (root : command.root = "seed")
    (named : command.SeedsFiles) (database : Option (Database State)) (state : State)
    (ended : ((planner.plan command).settle database state).1.outcome = .ok ()) :
    ∃ steps, ((planner.plan command).settle database state).1.steps =
        .runCommand command.text :: steps ∧
      Plan.Sequence (planner.SeedGroup database) (planner.selection command) state steps
        ((planner.plan command).settle database state).2 ∧
      ∀ file schema table, .loadCsv file schema table ∈ steps →
        Path.Targets file.path schema table ∧
          ∀ other item, Path.Targets file.path other item → other = schema ∧ item = table := by
  have understood := Command.understood_of_parse parsed member
  have lands := Draft.lands_of_settle ended
  have loads : Loads ((planner.plan command).settle database state).1.steps :=
    planWith_loads tidy orderly (inlineFile_loads grammar tidy orderly depthLimit) understood lands
  rw [plan_seed root] at lands
  obtain ⟨steps, planned, later⟩ := withSteps_lands lands
  rw [← plan_seed root] at planned later
  refine ⟨steps, planned, ?_, fun file schema table among => ?_⟩
  · exact (planSeeds_lands named later).weaken fun path _ _ _ _ seeded =>
      seeded.group tidy orderly understood (Nat.le_refl _)
  · rw [planned] at loads
    have targets := loads file schema table (List.mem_cons_of_mem _ among)
    exact ⟨targets, fun other item => targets.unique⟩

/-- A file of commands among the seeds, which leads to rows of a schema and of a table. -/
def sown : Planner where
  grammar := Grammar.builtin
  snapshot := .disk ⟨".", .node (.folder (.folder "schemas"
      (.folder "app"
        (.folder "seeds" (.file "users.csv" (.text "id") .nil)
        (.folder "tables" (.folder "roles" (.folder "seeds"
          (.file "first.csv" (.text "id") .nil) .nil) .nil) .nil)) .nil)
    (.folder "seeds" (.file "all.ddsl" (.text "seed schema app\nseed tables") .nil) .nil)))⟩
  ref := none
  autoTransaction := true

theorem plan_seeds_groups_sown :
    let file : FileRef := ⟨"seeds/all.ddsl", none⟩
    let steps : List Step := [.enterFile file, .runCommand "seed schema app",
      .loadCsv ⟨"schemas/app/seeds/users.csv", none⟩ "app" "users", .runCommand "seed tables",
      .loadCsv ⟨"schemas/app/tables/roles/seeds/first.csv", none⟩ "app" "roles", .leaveFile file]
    Command.parse Grammar.builtin "seed database" = .ok [seedDatabase] ∧
      ((sown.plan seedDatabase).settle (none : Option (Database Unit)) ()).1.outcome = .ok () ∧
      ((sown.plan seedDatabase).settle (none : Option (Database Unit)) ()).1.steps =
        .runCommand "seed database" :: steps ∧
      sown.selection seedDatabase = ["seeds/all.ddsl"] ∧
      Plan.Sequence (sown.SeedGroup (none : Option (Database Unit)))
        (sown.selection seedDatabase) () steps () ∧
      ∀ file schema table, .loadCsv file schema table ∈ steps →
        Path.Targets file.path schema table ∧
          ∀ other item, Path.Targets file.path other item → other = schema ∧ item = table := by
  intro file steps
  have tidy : sown.snapshot.Tidy := by
    rintro folder ⟨⟩
    decide
  have orderly : sown.snapshot.Orderly := by
    rintro folder ⟨⟩
    decide
  have parsed : Command.parse Grammar.builtin "seed database" = .ok [seedDatabase] := by
    decide +kernel
  have ended : ((sown.plan seedDatabase).settle (none : Option (Database Unit)) ()).1.outcome =
      .ok () := by
    decide +kernel
  have shown : ((sown.plan seedDatabase).settle (none : Option (Database Unit)) ()).1.steps =
      .runCommand "seed database" :: steps := by
    decide +kernel
  obtain ⟨others, planned, groups, loads⟩ := plan_seeds_groups rfl tidy orderly parsed
    List.mem_cons_self rfl (by decide) (none : Option (Database Unit)) () ended
  obtain rfl : others = steps := (List.cons.inj (planned.symm.trans shown)).2
  exact ⟨parsed, ended, shown, by decide +kernel, groups, loads⟩

end Planner

end Rollout
