import Rollout.Proofs.Session.Context
import Rollout.Proofs.Session.Effects

/-!
Which calls running a step makes of the database, told without sessions, and that a database which
writes its calls down has exactly these on record afterwards, whether the step fails or not.
-/

namespace Rollout

variable {State : Type}

/-- Calls in order, up to the first that fails. -/
def Database.untilFailure (database : Database State) : List Database.Call → State →
    List Database.Call
  | [], _ => []
  | call :: rest, state =>
      match database.perform call state with
      | (.ok _, after) => call :: database.untilFailure rest after
      | (.error _, _) => [call]

/-- The calls that a step makes outside of dry runs, where the trees of these sources are open. A
step that opens or closes a transaction is taken not to be refused. -/
def Step.calls (database : Database State) (world : World) :
    Step → Sources × State → List Database.Call
  | runCommand text, (_, state) =>
      let user := (database.perform .currentUser state).1
      let entry : AuditEntry := {
        command := text
        executedAt := world.clock
        databaseUser := user.toOption.join
        systemUser := world.systemUser }
      [.currentUser, .recordAudit entry]
  | execFile file, (sources, _) =>
      match (sources.get world.workspace file.ref).1 with
      | .error _ => []
      | .ok tree =>
          match (tree.snapshot world.workspace).read file.path with
          | .error _ => []
          | .ok sql => [.exec sql]
  | execScript sql, _ => [.exec sql]
  | loadCsv file schema table, (sources, _) =>
      match (sources.get world.workspace file.ref).1 with
      | .error _ => []
      | .ok tree =>
          match (tree.snapshot world.workspace).localFile file.path with
          | .error _ => []
          | .ok found => [.loadCsv found schema table {}]
  | list kind schemas, (_, state) => database.untilFailure (kind.queries schemas) state
  | begin, _ => [.begin]
  | commit, _ => [.commit]
  | rollback, _ => [.rollback]
  | shellFile _, _ | shell _ _, _ | enterFile _, _ | leaveFile _, _ => []

theorem Database.mem_of_untilFailure {database : Database State} {call : Database.Call}
    {calls : List Database.Call} {state : State}
    (made : call ∈ database.untilFailure calls state) : call ∈ calls := by
  induction calls generalizing state with
  | nil => cases made
  | cons first rest ih =>
      simp only [untilFailure] at made
      split at made
      · rcases List.mem_cons.mp made with rfl | later
        · exact List.mem_cons_self
        · exact List.mem_cons_of_mem _ (ih later)
      · rw [List.mem_singleton.mp made]
        exact List.mem_cons_self

theorem ListKind.queries_isData {kind : ListKind} {schemas : List String} {call : Database.Call}
    (asked : call ∈ kind.queries schemas) : call.isData = true := by
  unfold queries at asked
  split at asked
  · cases asked
  · rw [List.mem_singleton.mp asked]
    rfl
  · obtain ⟨schema, -, rfl⟩ := List.mem_map.mp asked
    rfl

/-- Steps other than those that open or close a transaction only call for data. -/
theorem Step.calls_isData {database : Database State} {world : World} {step : Step}
    (ordinary : step.isTransaction = false) (start : Sources × State) {call : Database.Call}
    (made : call ∈ step.calls database world start) : call.isData = true := by
  cases step <;> simp only [calls] at made
  case runCommand =>
    simp only [List.mem_cons, List.not_mem_nil, or_false] at made
    rcases made with rfl | rfl <;> rfl
  case execFile =>
    split at made
    · cases made
    · split at made
      · cases made
      · rw [List.mem_singleton.mp made]
        rfl
  case execScript =>
    rw [List.mem_singleton.mp made]
    rfl
  case loadCsv =>
    split at made
    · cases made
    · split at made
      · cases made
      · rw [List.mem_singleton.mp made]
        rfl
  case list => exact ListKind.queries_isData (Database.mem_of_untilFailure made)
  case begin | commit | rollback => cases ordinary
  all_goals cases made

namespace Session

/-- From the one session to the other these calls have been written down. -/
def Writes (calls : List Database.Call) (before after : Session (State × List Database.Call)) :
    Prop :=
  after.database.2 = before.database.2 ++ calls

namespace Writes

variable {first second third : Session (State × List Database.Call)}
  {calls more : List Database.Call}

theorem nothing (same : second.database = first.database) : Writes [] first second := by
  unfold Writes
  rw [same, List.append_nil]

theorem trans (start : Writes calls first second) (rest : Writes more second third) :
    Writes (calls ++ more) first third := by
  unfold Writes at start rest ⊢
  rw [rest, start, List.append_assoc]

theorem of_database (same : second.database = third.database) (start : Writes calls first second) :
    Writes calls first third := by
  unfold Writes at start ⊢
  rw [← same, start]

theorem ofCall {database : Database State} {call : Database.Call}
    {answer : Except DatabaseError call.Reply}
    (called : first.call database.recorded call = (answer, second)) :
    Writes [call] first second := by
  obtain ⟨-, rfl⟩ := Prod.mk.inj called
  rfl

end Writes

variable (database : Database State) (world : World)
  (session : Session (State × List Database.Call)) (wet : session.context.dryRun = false)

include wet

theorem runCommand_writes (text : String) :
    Writes ((Step.runCommand text).calls database.recorded world
        (session.sources, session.database))
      session (session.runCommand database.recorded world text).2 := by
  simp only [runCommand, info, logged, wet, Bool.false_eq_true, if_false, call]
  split <;> rename_i noted <;> obtain ⟨-, rfl⟩ := Prod.mk.inj noted
  all_goals
    change _ = _
    simp [Step.calls, Database.recorded, warn, logged]

theorem executeSql_writes (origin sql : String) :
    Writes [.exec sql] session (session.executeSql database.recorded origin sql).2 := by
  simp only [executeSql, wet, Bool.false_eq_true, if_false]
  split <;> rename_i called <;> exact .ofCall called

theorem executeFile_writes (file : FileRef) :
    Writes ((Step.execFile file).calls database.recorded world (session.sources, session.database))
      session (session.executeFile database.recorded world file).2 := by
  simp only [executeFile, wet, Bool.false_eq_true, if_false, readFile, Step.calls]
  rcases opened : session.tree world file.ref with ⟨_ | tree, after⟩ <;>
    obtain ⟨got, context, same⟩ := tree_get world session opened <;> rw [got]
  · exact .nothing same
  · dsimp only
    cases (tree.snapshot world.workspace).read file.path with
    | error error => exact .nothing same
    | ok sql =>
        exact (Writes.nothing same).trans
          (executeSql_writes database after (by rw [context]; exact wet) _ sql)

theorem runShellFile_writes (file : FileRef) :
    Writes [] session (session.runShellFile world file).2 := by
  simp only [runShellFile, wet, Bool.false_eq_true, if_false, localFile]
  rcases opened : session.tree world file.ref with ⟨_ | tree, after⟩ <;>
    obtain ⟨-, -, same⟩ := tree_get world session opened
  · exact .nothing same
  · dsimp only
    cases (tree.snapshot world.workspace).localFile file.path with
    | error error => exact .nothing same
    | ok found => exact .nothing ((runProgram_state world after rfl).2.trans same)

theorem loadCsv_writes (file : FileRef) (schema table : String) :
    Writes ((Step.loadCsv file schema table).calls database.recorded world
        (session.sources, session.database))
      session (session.loadCsv database.recorded world file schema table).2 := by
  simp only [loadCsv, wet, Bool.false_eq_true, if_false, localFile, Step.calls]
  rcases opened : session.tree world file.ref with ⟨_ | tree, after⟩ <;>
    obtain ⟨got, -, same⟩ := tree_get world session opened <;> rw [got]
  · exact .nothing same
  · dsimp only
    cases (tree.snapshot world.workspace).localFile file.path with
    | error error => exact .nothing same
    | ok found =>
        have before : Writes [] session after := .nothing same
        dsimp only [Except.mapError]
        split <;> rename_i called <;> refine before.trans ?_
        · exact .ofCall called
        · exact (Writes.ofCall called).of_database rfl

omit wet in
/-- A call that others follow unless it fails. -/
theorem untilFailure_call {call : Database.Call} (rest : List Database.Call)
    {answer : Except DatabaseError call.Reply} {after : Session (State × List Database.Call)}
    (called : session.call database.recorded call = (answer, after)) :
    database.recorded.untilFailure (call :: rest) session.database =
      match answer with
      | .ok _ => call :: database.recorded.untilFailure rest after.database
      | .error _ => [call] := by
  obtain ⟨answered, state, -⟩ := call_parts called
  have performed : database.recorded.perform call session.database = (answer, after.database) :=
    Prod.ext answered state
  simp only [Database.untilFailure, performed]
  cases answer <;> rfl

omit wet in
theorem listItems_writes (kind : Option ItemKind) (schemas : List String) :
    Writes (database.recorded.untilFailure
        (schemas.map fun schema => .schemaItems schema kind) session.database)
      session (session.listItems database.recorded kind schemas).2 := by
  induction schemas generalizing session with
  | nil => exact .nothing rfl
  | cons schema rest ih =>
      unfold listItems
      split <;> rename_i called <;>
        rw [List.map_cons, untilFailure_call database session _ called]
      · exact .ofCall called
      · exact (Writes.ofCall called).trans (ih _)

omit wet in
theorem listTable_writes (kind : ListKind) (schemas : List String) :
    Writes (database.recorded.untilFailure (kind.queries schemas) session.database)
      session (session.listTable database.recorded kind schemas).2 := by
  unfold listTable
  split
  · exact .nothing rfl
  · split <;> rename_i called <;>
      rw [ListKind.queries, untilFailure_call database session _ called] <;>
      exact .ofCall called
  · rename_i noSchemas noForeignKeys
    rw [ListKind.queries_items noSchemas noForeignKeys]
    exact listItems_writes database session _ schemas

omit wet in
theorem list_writes (kind : ListKind) (schemas : List String) :
    Writes ((Step.list kind schemas).calls database.recorded world
        (session.sources, session.database))
      session (session.list database.recorded world kind schemas).2 := by
  have shows := listTable_writes database session kind schemas
  unfold list
  split <;> rename_i found <;> rw [found] at shows
  · exact shows
  · split
    · exact shows
    · unfold write
      split
      · exact shows
      · exact shows.of_database rfl

/-- Outside of dry runs, a step that neither opens nor closes a transaction makes its calls,
whether it fails or not. -/
theorem runStep_writes {step : Step} (ordinary : step.isTransaction = false) :
    Writes (step.calls database.recorded world (session.sources, session.database))
      session (session.runStep database.recorded world step).2 := by
  cases step with
  | runCommand text => exact runCommand_writes database world session wet text
  | execFile file => exact executeFile_writes database world session wet file
  | execScript sql => exact executeSql_writes database session wet _ sql
  | shellFile file => exact runShellFile_writes world session wet file
  | shell program arguments =>
      exact .nothing (runProgram_state world session (Prod.ext rfl rfl)).2
  | loadCsv file schema table => exact loadCsv_writes database world session wet file schema table
  | begin => cases ordinary
  | commit => cases ordinary
  | rollback => cases ordinary
  | enterFile file => exact .nothing rfl
  | leaveFile file => exact .nothing rfl
  | list kind schemas => exact list_writes database world session kind schemas

end Session

end Rollout
