import Rollout.Proofs.Database.Transactional
import Rollout.Proofs.Outcome
import Rollout.Proofs.Session.Frame

/-!
What steps do to the data, told without sessions: which trees they open and which calls they make
of the database. A session that runs a step to its end does just that.
-/

namespace Rollout

/-- The calls that a list step asks the database with. -/
def ListKind.queries (kind : ListKind) (schemas : List String) : List Database.Call :=
  match kind with
  | .schemas => []
  | .foreignKeys => [.foreignKeys]
  | kind => schemas.map fun schema => .schemaItems schema kind.itemKind?

theorem ListKind.queries_items {kind : ListKind} (noSchemas : kind = .schemas → False)
    (noForeignKeys : kind = .foreignKeys → False) (schemas : List String) :
    kind.queries schemas = schemas.map fun schema => .schemaItems schema kind.itemKind? := by
  unfold queries
  split
  · exact (noSchemas rfl).elim
  · exact (noForeignKeys rfl).elim
  · rfl

variable {State : Type}

/-- The trees that are open and the state of the database after a step that did not fail. All
calls of it succeed but those for the audit, which may fail. -/
def Step.effect (database : Database State) (world : World) :
    Step → Sources × State → Option (Sources × State)
  | runCommand text, (sources, state) =>
      let (user, asked) := database.perform .currentUser state
      let entry : AuditEntry := {
        command := text
        executedAt := world.clock
        databaseUser := user.toOption.join
        systemUser := world.systemUser }
      some (sources, (database.perform (.recordAudit entry) asked).2)
  | execFile file, (sources, state) =>
      match sources.get world.workspace file.ref with
      | (.error _, _) => none
      | (.ok tree, opened) =>
          match (tree.snapshot world.workspace).read file.path with
          | .error _ => none
          | .ok sql => (database.succeed (.exec sql) state).map (opened, ·)
  | execScript sql, (sources, state) => (database.succeed (.exec sql) state).map (sources, ·)
  | loadCsv file schema table, (sources, state) =>
      match sources.get world.workspace file.ref with
      | (.error _, _) => none
      | (.ok tree, opened) =>
          match (tree.snapshot world.workspace).localFile file.path with
          | .error _ => none
          | .ok found => (database.succeed (.loadCsv found schema table {}) state).map (opened, ·)
  | list kind schemas, (sources, state) =>
      (database.succeedEach (kind.queries schemas) state).map (sources, ·)
  | shellFile file, (sources, state) => some ((sources.get world.workspace file.ref).2, state)
  | shell _ _, start | enterFile _, start | leaveFile _, start | begin, start | commit, start
  | rollback, start => some start

/-- The effects of steps in order. The surroundings change from step to step. -/
def Step.effects (database : Database State) (surroundings : Surroundings) :
    Nat → List Step → Sources × State → Option (Sources × State)
  | _, [], start => some start
  | index, step :: rest, start =>
      (step.effect database (surroundings index) start).bind
        (effects database surroundings (index + 1) rest)

namespace Session

variable (database : Database State) (world : World) (session : Session State)

theorem call_succeed {call : Database.Call} {reply : call.Reply} {after : Session State}
    (called : session.call database call = (.ok reply, after)) :
    database.succeed call session.database = some after.database ∧
      after.sources = session.sources := by
  unfold Session.call at called
  rcases performed : database.perform call session.database with ⟨answer, last⟩
  rw [performed] at called
  obtain ⟨rfl, rfl⟩ := Prod.mk.inj called
  simp [Database.succeed, performed]

theorem tree_get {ref : Option String} {found : Except RegistryError Tree} {after : Session State}
    (opened : session.tree world ref = (found, after)) :
    session.sources.get world.workspace ref = (found, after.sources) ∧
      after.context = session.context ∧ after.database = session.database := by
  obtain ⟨found, rfl⟩ := Prod.mk.inj opened
  exact ⟨Prod.ext found rfl, rfl, rfl⟩

/-- Whatever is read from a source tree comes from the tree that the sources hold. -/
theorem tree_read {Value : Type} (read : Tree → Except SourceError Value) {ref : Option String}
    {value : Value} {after : Session State}
    (found : (match session.tree world ref with
      | (.error error, session) => (.error (.registry error), session)
      | (.ok tree, session) => ((read tree).mapError .source, session) : Result State Value) =
        (.ok value, after)) :
    ∃ tree, session.sources.get world.workspace ref = (.ok tree, after.sources) ∧
      read tree = .ok value ∧ after.context = session.context ∧
      after.database = session.database := by
  split at found <;> rename_i opened <;> obtain ⟨result, rfl⟩ := Prod.mk.inj found
  · cases result
  · rename_i tree _
    obtain ⟨got, same⟩ := tree_get world session opened
    exact ⟨tree, got, Outcome.mapError_eq_ok.mp result, same⟩

theorem readFile_ok {file : FileRef} {text : String} {after : Session State}
    (found : session.readFile world file = (.ok text, after)) :
    ∃ tree, session.sources.get world.workspace file.ref = (.ok tree, after.sources) ∧
      (tree.snapshot world.workspace).read file.path = .ok text ∧
      after.context = session.context ∧ after.database = session.database :=
  tree_read world session (fun tree => (tree.snapshot world.workspace).read file.path) found

theorem localFile_ok {file : FileRef} {held : LocalFile} {after : Session State}
    (found : session.localFile world file = (.ok held, after)) :
    ∃ tree, session.sources.get world.workspace file.ref = (.ok tree, after.sources) ∧
      (tree.snapshot world.workspace).localFile file.path = .ok held ∧
      after.context = session.context ∧ after.database = session.database :=
  tree_read world session (fun tree => (tree.snapshot world.workspace).localFile file.path) found

/-- The step does what it is meant to do, from the one session to the other. -/
def Effected (step : Step) (before after : Session State) : Prop :=
  step.effect database world (before.sources, before.database) =
    some (after.sources, after.database)

variable (wet : session.context.dryRun = false)
include wet

theorem runCommand_effect (text : String) :
    Effected database world (.runCommand text) session
      (session.runCommand database world text).2 := by
  unfold Effected runCommand
  simp only [info, logged, wet, Bool.false_eq_true, if_false, call]
  split <;> rename_i noted <;> obtain ⟨-, rfl⟩ := Prod.mk.inj noted <;> rfl

theorem executeSql_effect {origin sql : String} {after : Session State}
    (ran : session.executeSql database origin sql = (.ok (), after)) :
    database.succeed (.exec sql) session.database = some after.database ∧
      after.sources = session.sources := by
  simp only [executeSql, wet, Bool.false_eq_true, if_false] at ran
  split at ran <;> rename_i called <;> obtain ⟨result, rfl⟩ := Prod.mk.inj ran
  · exact call_succeed database session called
  · cases result

theorem executeFile_effect {file : FileRef} {after : Session State}
    (ran : session.executeFile database world file = (.ok (), after)) :
    Effected database world (.execFile file) session after := by
  simp only [executeFile, wet, Bool.false_eq_true, if_false] at ran
  split at ran <;> rename_i found
  · cases (Prod.mk.inj ran).1
  · obtain ⟨tree, got, reads, context, state⟩ := readFile_ok world session found
    obtain ⟨succeeds, sources⟩ := executeSql_effect database _ (by rw [context]; exact wet) ran
    rw [state] at succeeds
    simp [Effected, Step.effect, got, reads, succeeds, sources]

theorem loadCsv_effect {file : FileRef} {schema table : String} {after : Session State}
    (ran : session.loadCsv database world file schema table = (.ok (), after)) :
    Effected database world (.loadCsv file schema table) session after := by
  simp only [loadCsv, wet, Bool.false_eq_true, if_false] at ran
  split at ran <;> rename_i found
  · cases (Prod.mk.inj ran).1
  · obtain ⟨tree, got, reads, context, state⟩ := localFile_ok world session found
    split at ran <;> rename_i called <;> obtain ⟨result, rfl⟩ := Prod.mk.inj ran
    · cases result
    · obtain ⟨succeeds, sources⟩ := call_succeed database _ called
      rw [state] at succeeds
      simp [Effected, Step.effect, got, reads, succeeds, sources, logged]

omit wet in
theorem logLines_state (level : LogLevel) (text : String) :
    (session.logLines level text).sources = session.sources ∧
      (session.logLines level text).database = session.database := by
  unfold logLines
  generalize session.indent = indent
  generalize Text.lines text = lines
  induction lines generalizing session with
  | nil => exact ⟨rfl, rfl⟩
  | cons line rest ih => exact ih _

omit wet in
theorem runProgram_state {program : String} {arguments : List String} {script : Option Content}
    {result : Except RunError Unit} {after : Session State}
    (ran : session.runProgram world program arguments script = (result, after)) :
    after.sources = session.sources ∧ after.database = session.database := by
  have same : (session.runProgram world program arguments script).2 = after := by rw [ran]
  rw [← same]
  unfold runProgram
  dsimp only
  split
  · exact ⟨rfl, rfl⟩
  · split
    · exact ⟨rfl, rfl⟩
    · split <;> simp [logLines_state]

theorem runShellFile_effect {file : FileRef} {after : Session State}
    (ran : session.runShellFile world file = (.ok (), after)) :
    Effected database world (.shellFile file) session after := by
  simp only [runShellFile, wet, Bool.false_eq_true, if_false] at ran
  split at ran <;> rename_i found
  · cases (Prod.mk.inj ran).1
  · rename_i opened
    obtain ⟨tree, got, -, -, same⟩ := localFile_ok world session found
    obtain ⟨sources, state⟩ := runProgram_state world opened ran
    simp [Effected, Step.effect, got, sources, state, same]

omit wet in
theorem listItems_effect {kind : Option ItemKind} {schemas : List String}
    {items : List SchemaItem} {after : Session State}
    (listed : session.listItems database kind schemas = (.ok items, after)) :
    database.succeedEach (schemas.map fun schema => .schemaItems schema kind) session.database =
        some after.database ∧
      after.sources = session.sources := by
  induction schemas generalizing session items with
  | nil =>
      obtain ⟨-, rfl⟩ := Prod.mk.inj listed
      exact ⟨rfl, rfl⟩
  | cons schema rest ih =>
      unfold listItems at listed
      split at listed <;> rename_i called
      · cases (Prod.mk.inj listed).1
      · rename_i opened
        obtain ⟨succeeds, same⟩ := call_succeed database session called
        rcases more : opened.listItems database kind rest with ⟨_ | found, last⟩
        · simp [more, Except.map] at listed
        · rw [more] at listed
          obtain ⟨-, rfl⟩ := Prod.mk.inj listed
          obtain ⟨later, sources⟩ := ih opened more
          exact ⟨by simp [Database.succeedEach, succeeds, later], sources.trans same⟩

omit wet in
theorem listTable_effect {kind : ListKind} {schemas : List String} {table : Table}
    {after : Session State} (shown : session.listTable database kind schemas = (.ok table, after)) :
    database.succeedEach (kind.queries schemas) session.database = some after.database ∧
      after.sources = session.sources := by
  unfold listTable at shown
  split at shown
  · obtain ⟨-, rfl⟩ := Prod.mk.inj shown
    exact ⟨rfl, rfl⟩
  · split at shown <;> rename_i called
    · cases (Prod.mk.inj shown).1
    · obtain ⟨succeeds, same⟩ := call_succeed database session called
      obtain ⟨-, rfl⟩ := Prod.mk.inj shown
      exact ⟨by simp [ListKind.queries, Database.succeedEach, succeeds], same⟩
  · rename_i noSchemas noForeignKeys
    rw [ListKind.queries_items noSchemas noForeignKeys]
    rcases listed : session.listItems database kind.itemKind? schemas with ⟨_ | items, last⟩
    · simp [listed, Except.map] at shown
    · rw [listed] at shown
      obtain ⟨-, rfl⟩ := Prod.mk.inj shown
      exact listItems_effect database session listed

omit wet in
theorem list_effect {kind : ListKind} {schemas : List String} {after : Session State}
    (ran : session.list database world kind schemas = (.ok (), after)) :
    Effected database world (.list kind schemas) session after := by
  unfold list at ran
  split at ran <;> rename_i shown
  · cases (Prod.mk.inj ran).1
  · obtain ⟨succeeds, sources⟩ := listTable_effect database session shown
    split at ran
    · cases (Prod.mk.inj ran).1
    · unfold write at ran
      split at ran <;> obtain ⟨result, rfl⟩ := Prod.mk.inj ran
      · cases result
      · simp [Effected, Step.effect, succeeds, sources]

theorem runStep_effect {step : Step} (ordinary : step.isTransaction = false)
    {after : Session State} (ran : session.runStep database world step = (.ok (), after)) :
    Effected database world step session after := by
  cases step with
  | runCommand text =>
      have effected := runCommand_effect database world session wet text
      have same : session.runCommand database world text = (.ok (), after) := ran
      rwa [same] at effected
  | execFile file => exact executeFile_effect database world session wet ran
  | execScript sql =>
      obtain ⟨succeeds, sources⟩ := executeSql_effect database session wet ran
      simp [Effected, Step.effect, succeeds, sources]
  | shellFile file => exact runShellFile_effect database world session wet ran
  | shell program arguments =>
      obtain ⟨sources, state⟩ := runProgram_state world session ran
      simp [Effected, Step.effect, sources, state]
  | loadCsv file schema table => exact loadCsv_effect database world session wet ran
  | begin => cases ordinary
  | commit => cases ordinary
  | rollback => cases ordinary
  | enterFile file =>
      obtain ⟨-, rfl⟩ := Prod.mk.inj ran
      rfl
  | leaveFile file =>
      obtain ⟨-, rfl⟩ := Prod.mk.inj ran
      rfl
  | list kind schemas => exact list_effect database world session ran

/-- Steps that come to their end have had their effects, in order. -/
theorem runSteps_effects {surroundings : Surroundings} {index : Nat} {steps : List Step}
    (ordinary : ∀ step ∈ steps, step.isTransaction = false) {after : Session State}
    (ran : session.runSteps database surroundings index steps = (.ok (), after)) :
    Step.effects database surroundings index steps (session.sources, session.database) =
      some (after.sources, after.database) := by
  induction steps generalizing session index with
  | nil =>
      obtain ⟨-, rfl⟩ := Prod.mk.inj ran
      rfl
  | cons step rest ih =>
      have first := ordinary step List.mem_cons_self
      have acts := runStep_acts database (surroundings index) session step
      unfold runSteps at ran
      split at ran <;> rename_i stepped
      · cases (Prod.mk.inj ran).1
      · rw [stepped] at acts
        have effect : step.effect database (surroundings index) _ = some _ :=
          runStep_effect database _ session wet first stepped
        have effects := ih _ (acts.dryRun.trans wet)
          (fun later member => ordinary later (List.mem_cons_of_mem _ member)) ran
        simp [Step.effects, effect, effects]

end Session

end Rollout
