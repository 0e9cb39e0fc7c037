import Rollout.Proofs.Session.Frame
import Rollout.Session.Execute

/-!
What running leaves of the context. Calls of the database, source trees and logs do not touch it at
all; a step changes the depth if it marks a file of commands, and nothing else unless it opens or
closes a transaction.
-/

namespace Rollout

/-- The depth that a step counts to. -/
def Step.depthFrom : Step → Nat → Nat
  | enterFile _, depth => depth + 1
  | leaveFile _, depth => depth - 1
  | _, depth => depth

namespace Session

variable {State : Type}

/-- What a call answers, and all that it changes. -/
theorem call_parts {database : Database State} {session after : Session State}
    {call : Database.Call} {answer : Except DatabaseError call.Reply}
    (called : session.call database call = (answer, after)) :
    (database.perform call session.database).1 = answer ∧
      (database.perform call session.database).2 = after.database ∧
      after.context = session.context := by
  obtain ⟨answered, rfl⟩ := Prod.mk.inj called
  exact ⟨answered, rfl, rfl⟩

theorem call_performed {database : Database State} {session : Session State} {call : Database.Call}
    {answer : Except DatabaseError call.Reply} {state : State}
    (performed : database.perform call session.database = (answer, state)) :
    session.call database call = (answer, { session with database := state }) := by
  unfold Session.call
  rw [performed]

theorem release_database (database : Database State) (ran : Result State Nat) :
    (release database ran).2.database = (database.perform .unlock ran.2.database).2 := by
  unfold release
  dsimp only
  split <;> rename_i called <;> obtain ⟨-, rfl⟩ := Prod.mk.inj called
  · rfl
  · split <;> rfl

theorem release_context (database : Database State) (ran : Result State Nat) :
    (release database ran).2.context = ran.2.context := by
  unfold release
  dsimp only
  split <;> rename_i called <;> obtain ⟨-, rfl⟩ := Prod.mk.inj called
  · rfl
  · split <;> rfl

variable (database : Database State) (world : World) (session : Session State)

theorem call_context {call : Database.Call} {answer : Except DatabaseError call.Reply}
    {after : Session State} (called : session.call database call = (answer, after)) :
    after.context = session.context :=
  (call_parts called).2.2

theorem readFile_context (file : FileRef) :
    (session.readFile world file).2.context = session.context := by
  unfold readFile
  split <;> rename_i opened <;> obtain ⟨-, rfl⟩ := Prod.mk.inj opened <;> rfl

theorem localFile_context (file : FileRef) :
    (session.localFile world file).2.context = session.context := by
  unfold localFile
  split <;> rename_i opened <;> obtain ⟨-, rfl⟩ := Prod.mk.inj opened <;> rfl

theorem logLines_context (level : LogLevel) (text : String) :
    (session.logLines level text).context = session.context := by
  unfold logLines
  generalize session.indent = indent
  generalize Text.lines text = lines
  induction lines generalizing session with
  | nil => rfl
  | cons line rest ih => exact ih _

theorem runCommand_context (text : String) :
    (session.runCommand database world text).2.context = session.context := by
  unfold runCommand
  dsimp only
  split
  · rfl
  · split <;> rename_i noted <;> have same := call_context database _ noted <;> exact same

theorem executeSql_context (origin sql : String) :
    (session.executeSql database origin sql).2.context = session.context := by
  unfold executeSql
  split
  · rfl
  · split <;> rename_i called <;> exact call_context database session called

theorem executeFile_context (file : FileRef) :
    (session.executeFile database world file).2.context = session.context := by
  unfold executeFile
  split
  · rfl
  · have reads := readFile_context world session file
    split <;> rename_i found <;> rw [found] at reads
    · exact reads
    · exact (executeSql_context database _ _ _).trans reads

theorem runProgram_context (program : String) (arguments : List String)
    (script : Option Content) :
    (session.runProgram world program arguments script).2.context = session.context := by
  unfold runProgram
  dsimp only
  split
  · rfl
  · split
    · rfl
    · split
      · exact (logLines_context _ _ _).trans (logLines_context session _ _)
      · exact logLines_context session _ _

theorem runShellFile_context (file : FileRef) :
    (session.runShellFile world file).2.context = session.context := by
  unfold runShellFile
  split
  · rfl
  · have finds := localFile_context world session file
    split <;> rename_i found <;> rw [found] at finds
    · exact finds
    · exact (runProgram_context world _ _ _ _).trans finds

theorem loadCsv_context (file : FileRef) (schema table : String) :
    (session.loadCsv database world file schema table).2.context = session.context := by
  unfold loadCsv
  split
  · rfl
  · have finds := localFile_context world session file
    split <;> rename_i found <;> rw [found] at finds
    · exact finds
    · split <;> rename_i called <;> exact (call_context database _ called).trans finds

theorem listItems_context (kind : Option ItemKind) (schemas : List String) :
    (session.listItems database kind schemas).2.context = session.context := by
  induction schemas generalizing session with
  | nil => rfl
  | cons schema rest ih =>
      unfold listItems
      split <;> rename_i called
      · exact call_context database session called
      · exact (ih _).trans (call_context database session called)

theorem listTable_context (kind : ListKind) (schemas : List String) :
    (session.listTable database kind schemas).2.context = session.context := by
  unfold listTable
  split
  · rfl
  · split <;> rename_i called <;> exact call_context database session called
  · exact listItems_context database session _ schemas

theorem list_context (kind : ListKind) (schemas : List String) :
    (session.list database world kind schemas).2.context = session.context := by
  have shows := listTable_context database session kind schemas
  unfold list
  split <;> rename_i found <;> rw [found] at shows
  · exact shows
  · split
    · exact shows
    · unfold write
      split <;> exact shows

/-- Steps other than those that open or close a transaction count the depth, whether they fail or
not, and leave everything else in the context alone. -/
theorem runStep_context {step : Step} (ordinary : step.isTransaction = false) :
    (session.runStep database world step).2.context =
      { session.context with depth := step.depthFrom session.context.depth } := by
  cases step with
  | runCommand text => exact runCommand_context database world session text
  | execFile file => exact executeFile_context database world session file
  | execScript sql => exact executeSql_context database session _ sql
  | shellFile file => exact runShellFile_context world session file
  | shell program arguments => exact runProgram_context world session program arguments none
  | loadCsv file schema table => exact loadCsv_context database world session file schema table
  | begin => cases ordinary
  | commit => cases ordinary
  | rollback => cases ordinary
  | enterFile file => rfl
  | leaveFile file => rfl
  | list kind schemas => exact list_context database world session kind schemas

variable {database session}

theorem Switch.depth {call : Database.Call} {wanted : Bool} {result : Result State Unit}
    (switch : Switch database session call wanted result) :
    result.2.context.depth = session.context.depth := by
  cases switch with
  | refused => rfl
  | logged _ _ _ _ context => rw [context]
  | failed _ _ _ _ context => rw [context]
  | moved _ _ _ _ _ context => rw [context]

variable (database session)

/-- A step about the transaction is an attempt to open or close it. -/
theorem runStep_switch {step : Step} (switches : step.isTransaction = true) :
    ∃ call wanted, Switch database session call wanted (session.runStep database world step) := by
  cases step with
  | begin => exact ⟨_, _, begin_switch database session⟩
  | commit => exact ⟨_, _, commit_switch database session⟩
  | rollback => exact ⟨_, _, rollback_switch database session⟩
  | _ => cases switches

theorem runStep_depth (step : Step) :
    (session.runStep database world step).2.context.depth =
      step.depthFrom session.context.depth := by
  by_cases transaction : step.isTransaction = true
  · obtain ⟨_, _, switch⟩ := runStep_switch database world session transaction
    cases step with
    | begin | commit | rollback => exact switch.depth
    | _ => cases transaction
  · rw [runStep_context database world session (by simpa using transaction)]

variable {database session}

theorem Switch.error_context {call : Database.Call} {wanted : Bool} {failure : RunError}
    {after : Session State}
    (switch : Switch database session call wanted (.error failure, after)) :
    after.context = session.context := by
  cases switch with
  | refused => rfl
  | failed _ _ _ _ context => exact context

/-- A step that fails leaves the context as it was. -/
theorem runStep_error {world : World} {step : Step} {failure : RunError} {after : Session State}
    (fails : session.runStep database world step = (.error failure, after)) :
    after.context = session.context := by
  by_cases transaction : step.isTransaction = true
  · obtain ⟨_, _, switch⟩ := runStep_switch database world session transaction
    rw [fails] at switch
    exact switch.error_context
  · have context := runStep_context database world session (by simpa using transaction)
    rw [fails] at context
    -- the marks of files count the depth, and cannot fail
    cases step with
    | enterFile | leaveFile => cases (Prod.mk.inj fails).1
    | _ => exact context

end Session

end Rollout
