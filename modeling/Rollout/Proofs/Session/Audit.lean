import Mathlib.Data.List.Basic
import Rollout.Proofs.Database.Audit
import Rollout.Proofs.Database.Calls
import Rollout.Proofs.Session.Stages
import Rollout.Proofs.Session.StepCalls

/-!
The audit and the rest of a run. Whether and where calls for the audit fail makes no difference to
anything but the log; and every command that a run comes to, and nothing else, is entered once.
-/

namespace Rollout

/-- The command that the step stands for. -/
def Step.command? : Step → Option String
  | runCommand text => some text
  | _ => none

namespace Session

open Database (AuditApart AlikeSince)

variable {First Second : Type}

/-- The same session over another database, which is in the given state. -/
def inState (session : Session First) (state : Second) : Session Second :=
  { context := session.context
    sources := session.sources
    database := state
    output := session.output
    log := session.log }

/-- Sessions that differ in their logs and otherwise only as states that are alike do. -/
def Twins (alike : First → Second → Prop) (one : Session First) (other : Session Second) : Prop :=
  ∃ state log, other = { one.inState state with log := log } ∧ alike one.database state

/-- The same answer, in twin sessions. -/
def TwinAnswers {Answer : Type} (alike : First → Second → Prop) (one : Answer × Session First)
    (other : Answer × Session Second) : Prop :=
  ∃ answer after twin, one = (answer, after) ∧ other = (answer, twin) ∧ Twins alike after twin

section Twins

variable {alike : First → Second → Prop} {one : Session First} {other : Session Second}

theorem over_twins {session : Session First} {state : Second}
    (same : alike session.database state) :
    Twins alike session (session.inState state) :=
  ⟨state, session.log, rfl, same⟩

namespace Twins

variable {Answer : Type}

theorem answer (twins : Twins alike one other) (answer : Answer) :
    TwinAnswers alike (answer, one) (answer, other) :=
  ⟨answer, one, other, rfl, rfl, twins⟩

theorem context (twins : Twins alike one other) : other.context = one.context := by
  obtain ⟨state, log, rfl, -⟩ := twins
  rfl

theorem output (twins : Twins alike one other) : other.output = one.output := by
  obtain ⟨state, log, rfl, -⟩ := twins
  rfl

theorem database (twins : Twins alike one other) : alike one.database other.database := by
  obtain ⟨state, log, rfl, same⟩ := twins
  exact same

theorem indent (twins : Twins alike one other) : other.indent = one.indent := by
  unfold Session.indent
  rw [twins.context]

theorem logged (twins : Twins alike one other) (entry more : LogEntry) :
    Twins alike (one.logged entry) (other.logged more) := by
  obtain ⟨state, log, rfl, same⟩ := twins
  exact ⟨state, log ++ [more], rfl, same⟩

theorem withContext (twins : Twins alike one other) (context : Context) :
    Twins alike (one.withContext context) (other.withContext context) := by
  obtain ⟨state, log, rfl, same⟩ := twins
  exact ⟨state, log, rfl, same⟩

theorem setTransaction (twins : Twins alike one other) (isOpen : Bool) :
    Twins alike (one.setTransaction isOpen) (other.setTransaction isOpen) := by
  unfold Session.setTransaction
  rw [twins.context]
  exact twins.withContext _

theorem taken (twins : Twins alike one other) : Twins alike one.taken other.taken := by
  unfold Session.taken
  rw [twins.context]
  exact twins.withContext _

theorem logLines (twins : Twins alike one other) (level : LogLevel) (text : String) :
    Twins alike (one.logLines level text) (other.logLines level text) := by
  unfold Session.logLines
  rw [twins.indent]
  generalize one.indent = indent
  generalize Text.lines text = lines
  induction lines generalizing one other with
  | nil => exact twins
  | cons line rest ih => exact ih (twins.logged _ _)

theorem tree (twins : Twins alike one other) (world : World) (ref : Option String) :
    TwinAnswers alike (one.tree world ref) (other.tree world ref) := by
  obtain ⟨state, log, rfl, same⟩ := twins
  exact ⟨_, _, _, rfl, rfl, state, log, rfl, same⟩

theorem readFile (twins : Twins alike one other) (world : World) (file : FileRef) :
    TwinAnswers alike (one.readFile world file) (other.readFile world file) := by
  obtain ⟨opened, after, twin, here, there, twins⟩ := twins.tree world file.ref
  unfold Session.readFile
  rw [here, there]
  cases opened <;> exact twins.answer _

theorem localFile (twins : Twins alike one other) (world : World) (file : FileRef) :
    TwinAnswers alike (one.localFile world file) (other.localFile world file) := by
  obtain ⟨opened, after, twin, here, there, twins⟩ := twins.tree world file.ref
  unfold Session.localFile
  rw [here, there]
  cases opened <;> exact twins.answer _

theorem runProgram (twins : Twins alike one other) (world : World) (program : String)
    (arguments : List String) (script : Option Content) :
    TwinAnswers alike (one.runProgram world program arguments script)
      (other.runProgram world program arguments script) := by
  unfold Session.runProgram
  rw [twins.context]
  dsimp only
  split
  · exact (twins.logged _ _).answer _
  · split
    · exact twins.answer _
    · split
      · exact ((twins.logLines _ _).logLines _ _).answer _
      · exact (twins.logLines _ _).answer _

theorem runShellFile (twins : Twins alike one other) (world : World) (file : FileRef) :
    TwinAnswers alike (one.runShellFile world file) (other.runShellFile world file) := by
  unfold Session.runShellFile
  rw [twins.context]
  split
  · exact (twins.logged _ _).answer _
  · obtain ⟨found, after, twin, here, there, twins⟩ := twins.localFile world file
    rw [here, there]
    cases found with
    | error error => exact twins.answer _
    | ok held => exact twins.runProgram _ _ _ _

theorem write (twins : Twins alike one other) (world : World) (text : String) :
    TwinAnswers alike (one.write world text) (other.write world text) := by
  unfold Session.write
  split
  · exact twins.answer _
  · obtain ⟨state, log, rfl, same⟩ := twins
    exact ⟨_, _, _, rfl, rfl, state, log, rfl, same⟩

theorem enterFile (twins : Twins alike one other) (file : FileRef) :
    Twins alike (one.enterFile file) (other.enterFile file) := by
  have noted := twins.logged
    { level := .info, message := s!"{one.indent}> {file.written}" }
    { level := .info, message := s!"{other.indent}> {file.written}" }
  unfold Session.enterFile
  dsimp only [Session.info]
  rw [noted.context]
  exact noted.withContext _

theorem leaveFile (twins : Twins alike one other) (file : FileRef) :
    Twins alike (one.leaveFile file) (other.leaveFile file) := by
  unfold Session.leaveFile
  dsimp only [Session.info]
  rw [twins.context]
  exact (twins.withContext _).logged _ _

end Twins

variable {first : Database First} {second : Database Second} (apart : AuditApart first second alike)

include apart

namespace Twins

theorem call (twins : Twins alike one other) (call : Database.Call)
    (ordinary : call.isAudit = false) :
    TwinAnswers alike (one.call first call) (other.call second call) := by
  obtain ⟨state, log, rfl, same⟩ := twins
  refine ⟨_, _, _, rfl, ?_, _, log, rfl, apart.keeps same ordinary⟩
  exact Prod.ext (apart.answers same ordinary) rfl

theorem runCommand (twins : Twins alike one other) (world : World) (text : String) :
    TwinAnswers alike (one.runCommand first world text) (other.runCommand second world text) := by
  have named := twins.logged { level := .info, message := one.indent ++ text }
    { level := .info, message := other.indent ++ text }
  unfold Session.runCommand
  dsimp only [Session.info]
  rw [named.context]
  split
  · exact named.answer _
  · generalize one.logged _ = one at named ⊢
    generalize other.logged _ = other at named ⊢
    obtain ⟨state, log, rfl, same⟩ := named
    -- whatever the two databases tell about the user, what they are told differs in that alone
    have noted := apart.notes (apart.asks same)
      { command := text
        executedAt := world.clock
        databaseUser := (first.perform .currentUser one.database).1.toOption.join
        systemUser := world.systemUser }
      (second.perform .currentUser state).1.toOption.join
    split <;> rename_i here <;> obtain ⟨-, rfl⟩ := Prod.mk.inj here <;> split <;>
      rename_i there <;> obtain ⟨-, rfl⟩ := Prod.mk.inj there <;>
      exact ⟨_, _, _, rfl, rfl, _, _, rfl, noted⟩

theorem executeSql (twins : Twins alike one other) (origin sql : String) :
    TwinAnswers alike (one.executeSql first origin sql) (other.executeSql second origin sql) := by
  unfold Session.executeSql
  rw [twins.context]
  split
  · exact (twins.logged _ _).answer _
  · obtain ⟨answer, after, twin, here, there, twins⟩ :=
      twins.call apart (.exec sql) rfl
    rw [here, there]
    cases answer <;> exact twins.answer _

theorem executeFile (twins : Twins alike one other) (world : World) (file : FileRef) :
    TwinAnswers alike (one.executeFile first world file) (other.executeFile second world file) := by
  unfold Session.executeFile
  rw [twins.context]
  split
  · exact (twins.logged _ _).answer _
  · obtain ⟨found, after, twin, here, there, twins⟩ := twins.readFile world file
    rw [here, there]
    cases found with
    | error error => exact twins.answer _
    | ok sql => exact twins.executeSql apart _ _

theorem loadCsv (twins : Twins alike one other) (world : World) (file : FileRef)
    (schema table : String) :
    TwinAnswers alike (one.loadCsv first world file schema table)
      (other.loadCsv second world file schema table) := by
  unfold Session.loadCsv
  rw [twins.context]
  split
  · exact (twins.logged _ _).answer _
  · obtain ⟨found, after, twin, here, there, twins⟩ := twins.localFile world file
    rw [here, there]
    cases found with
    | error error => exact twins.answer _
    | ok held =>
        obtain ⟨answer, after, twin, here, there, twins⟩ :=
          twins.call apart (.loadCsv held schema table {}) rfl
        dsimp only
        rw [here, there]
        cases answer with
        | error error => exact twins.answer _
        | ok rows => exact (twins.logged _ _).answer _

theorem begin (twins : Twins alike one other) :
    TwinAnswers alike (one.begin first) (other.begin second) := by
  unfold Session.begin
  rw [twins.context]
  split
  · exact twins.answer _
  · split
    · exact ((twins.logged _ _).setTransaction _).answer _
    · obtain ⟨answer, after, twin, here, there, twins⟩ := twins.call apart .begin rfl
      rw [here, there]
      cases answer with
      | error error => exact twins.answer _
      | ok reply => exact (twins.setTransaction _).answer _

theorem commit (twins : Twins alike one other) :
    TwinAnswers alike (one.commit first) (other.commit second) := by
  unfold Session.commit
  rw [twins.context]
  split
  · exact twins.answer _
  · split
    · exact ((twins.logged _ _).setTransaction _).answer _
    · obtain ⟨answer, after, twin, here, there, twins⟩ := twins.call apart .commit rfl
      rw [here, there]
      cases answer with
      | error error => exact twins.answer _
      | ok reply => exact (twins.setTransaction _).answer _

theorem rollback (twins : Twins alike one other) :
    TwinAnswers alike (one.rollback first) (other.rollback second) := by
  unfold Session.rollback
  rw [twins.context]
  split
  · exact twins.answer _
  · split
    · exact ((twins.logged _ _).setTransaction _).answer _
    · obtain ⟨answer, after, twin, here, there, twins⟩ := twins.call apart .rollback rfl
      rw [here, there]
      cases answer with
      | error error => exact twins.answer _
      | ok reply => exact ((twins.logged _ _).setTransaction _).answer _

theorem listItems (twins : Twins alike one other) (kind : Option ItemKind)
    (schemas : List String) :
    TwinAnswers alike (one.listItems first kind schemas) (other.listItems second kind schemas) := by
  induction schemas generalizing one other with
  | nil => exact twins.answer _
  | cons schema rest ih =>
      obtain ⟨answer, after, twin, here, there, twins⟩ :=
        twins.call apart (.schemaItems schema kind) rfl
      rw [Session.listItems, Session.listItems, here, there]
      cases answer with
      | error error => exact twins.answer _
      | ok items =>
          obtain ⟨more, after, twin, here, there, twins⟩ := ih twins
          dsimp only
          rw [here, there]
          exact twins.answer _

theorem listTable (twins : Twins alike one other) (kind : ListKind) (schemas : List String) :
    TwinAnswers alike (one.listTable first kind schemas) (other.listTable second kind schemas) := by
  unfold Session.listTable
  split
  · exact twins.answer _
  · obtain ⟨answer, after, twin, here, there, twins⟩ := twins.call apart .foreignKeys rfl
    rw [here, there]
    cases answer <;> exact twins.answer _
  · obtain ⟨items, after, twin, here, there, twins⟩ := twins.listItems apart kind.itemKind? schemas
    rw [here, there]
    exact twins.answer _

theorem list (twins : Twins alike one other) (world : World) (kind : ListKind)
    (schemas : List String) :
    TwinAnswers alike (one.list first world kind schemas)
      (other.list second world kind schemas) := by
  obtain ⟨table, after, twin, here, there, twins⟩ := twins.listTable apart kind schemas
  unfold Session.list
  rw [here, there]
  cases table with
  | error error => exact twins.answer _
  | ok table =>
      dsimp only
      rw [twins.context]
      split
      · exact twins.answer _
      · exact twins.write _ _

theorem runStep (twins : Twins alike one other) (world : World) (step : Step) :
    TwinAnswers alike (one.runStep first world step) (other.runStep second world step) := by
  cases step with
  | runCommand text => exact twins.runCommand apart world text
  | execFile file => exact twins.executeFile apart world file
  | execScript sql => exact twins.executeSql apart _ sql
  | shellFile file => exact twins.runShellFile world file
  | shell program arguments => exact twins.runProgram world program arguments none
  | loadCsv file schema table => exact twins.loadCsv apart world file schema table
  | begin => exact twins.begin apart
  | commit => exact twins.commit apart
  | rollback => exact twins.rollback apart
  | enterFile file => exact (twins.enterFile file).answer _
  | leaveFile file => exact (twins.leaveFile file).answer _
  | list kind schemas => exact twins.list apart world kind schemas

theorem runSteps (twins : Twins alike one other) (surroundings : Surroundings) (index : Nat)
    (steps : List Step) :
    TwinAnswers alike (one.runSteps first surroundings index steps)
      (other.runSteps second surroundings index steps) := by
  induction steps generalizing index one other with
  | nil => exact twins.answer _
  | cons step rest ih =>
      obtain ⟨answer, after, twin, here, there, twins⟩ :=
        twins.runStep apart (surroundings index) step
      rw [Session.runSteps, Session.runSteps, here, there]
      cases answer with
      | error error => exact twins.answer _
      | ok reply => exact ih twins (index + 1)

theorem abort (twins : Twins alike one other) :
    Twins alike (one.abort first) (other.abort second) := by
  unfold Session.abort
  rw [twins.context]
  split
  · obtain ⟨answer, after, twin, here, there, twins⟩ := twins.rollback apart
    rw [here, there]
    cases answer with
    | error error => exact (twins.logged _ _).setTransaction _
    | ok reply => exact twins
  · exact twins

theorem secured (twins : Twins alike one other) :
    TwinAnswers alike (one.secured first) (other.secured second) := by
  unfold Session.secured needsLock
  rw [twins.context]
  split
  · exact twins.call apart .lock rfl
  · exact twins.answer _

theorem started (twins : Twins alike one other) :
    TwinAnswers alike (one.started first) (other.started second) := by
  rw [started_taken, started_taken, twins.context]
  split
  · exact twins.taken.begin apart
  · exact twins.taken.answer _

end Twins

/-- The end of a batch is the same for twins. -/
theorem closed_twins (wrapped : Bool) {ran : Result First Unit} {went : Result Second Unit}
    (answers : TwinAnswers alike ran went) :
    TwinAnswers alike (closed first wrapped ran) (closed second wrapped went) := by
  obtain ⟨answer, after, twin, rfl, rfl, twins⟩ := answers
  unfold closed
  split
  · cases answer with
    | error error => exact (twins.abort apart).answer _
    | ok reply =>
        obtain ⟨answer, after, twin, here, there, twins⟩ := twins.commit apart
        dsimp only
        rw [here, there]
        cases answer with
        | error error => exact (twins.abort apart).answer _
        | ok reply => exact twins.answer _
  · exact twins.answer _

theorem release_twins {ran : Result First Nat} {went : Result Second Nat}
    (answers : TwinAnswers alike ran went) :
    TwinAnswers alike (release first ran) (release second went) := by
  obtain ⟨result, after, twin, rfl, rfl, twins⟩ := answers
  obtain ⟨answer, after, twin, here, there, twins⟩ := twins.call apart .unlock rfl
  unfold release
  dsimp only
  rw [here, there]
  cases answer with
  | ok reply => exact twins.answer _
  | error error =>
      cases result with
      | ok count => exact twins.answer _
      | error failure => exact (twins.logged _ _).answer _

theorem answered_twins (locked : Bool) {ran : Result First Nat} {went : Result Second Nat}
    (answers : TwinAnswers alike ran went) :
    TwinAnswers alike (answered first locked ran) (answered second locked went) := by
  unfold answered
  split
  · exact release_twins apart answers
  · obtain ⟨result, after, twin, rfl, rfl, twins⟩ := answers
    exact twins.answer _

namespace Twins

theorem runQueue (twins : Twins alike one other) (surroundings : Surroundings) :
    TwinAnswers alike (one.runQueue first surroundings) (other.runQueue second surroundings) := by
  obtain ⟨ready, after, twin, here, there, later⟩ := twins.started apart
  rw [runQueue_stages, runQueue_stages, here, there]
  cases ready with
  | error error => exact later.answer _
  | ok reply =>
      dsimp only [batch]
      rw [twins.context]
      obtain ⟨answer, after, twin, here, there, later⟩ := closed_twins apart one.context.isWrapped
        (later.runSteps apart surroundings 0 one.context.queue.steps)
      rw [here, there]
      exact later.answer _

theorem execute (twins : Twins alike one other) (surroundings : Surroundings) :
    TwinAnswers alike (one.execute first surroundings) (other.execute second surroundings) := by
  obtain ⟨answer, after, twin, here, there, later⟩ := twins.secured apart
  have lock : other.needsLock = one.needsLock := by
    unfold needsLock
    rw [twins.context]
  rw [execute_stages, execute_stages, here, there, lock]
  cases answer with
  | error error =>
      dsimp only
      rw [later.context]
      exact (later.withContext _).answer _
  | ok reply => exact answered_twins apart _ (later.runQueue apart surroundings)

end Twins

end Twins

section Entries

variable {State : Type} {database : Database State} {surroundings : Surroundings}
  {session held start after : Session (State × List Database.Call)}

/-- The commands that were entered into the audit from the one session to the other. -/
def Enlists (texts : List String) (before after : Session (State × List Database.Call)) : Prop :=
  ∃ made, after.database.2 = before.database.2 ++ made ∧
    made.filterMap Database.Call.audited? = texts

namespace Enlists

variable {first second third : Session (State × List Database.Call)} {texts more : List String}

theorem trans (begins : Enlists texts first second) (rest : Enlists more second third) :
    Enlists (texts ++ more) first third := by
  obtain ⟨made, record, rfl⟩ := begins
  obtain ⟨later, register, rfl⟩ := rest
  refine ⟨made ++ later, ?_, List.filterMap_append⟩
  rw [register, record, List.append_assoc]

/-- Calls that are not made for the audit enter nothing. -/
theorem nothing {may : Database.Call → Prop} (others : ∀ call, may call → call.audited? = none)
    (reached : database.recorded.Reach may first.database second.database) :
    Enlists [] first second := by
  obtain ⟨made, record, all⟩ := reached.recorded
  exact ⟨made, record,
    List.filterMap_eq_nil_iff.mpr fun call member => others call (all call member)⟩

theorem same (unchanged : second.database = first.database) : Enlists [] first second :=
  ⟨[], by rw [unchanged, List.append_nil], rfl⟩

theorem before (rest : Enlists texts second third) (begins : Enlists [] first second) :
    Enlists texts first third :=
  begins.trans rest

theorem andThen (begins : Enlists texts first second) (rest : Enlists [] second third) :
    Enlists texts first third := by
  rw [← List.append_nil texts]
  exact begins.trans rest

end Enlists

theorem Switch.enlists {call : Database.Call} {wanted : Bool} (management : call.isData = false)
    {result : Result (State × List Database.Call) Unit}
    (switch : Switch database.recorded session call wanted result) :
    Enlists [] session result.2 := by
  refine .nothing ?_ (switch.acts database.recorded session management).reach
  intro made same
  rw [same]
  cases call <;> first | rfl | cases management

/-- The commands that a step enters: its own, outside of dry runs, and no other. -/
def entries (session : Session State) (step : Step) : List String :=
  if session.context.dryRun then [] else step.command?.toList

theorem flatMap_entries (session : Session State) (steps : List Step) :
    steps.flatMap session.entries =
      if session.context.dryRun then [] else steps.filterMap Step.command? := by
  unfold entries
  split
  · exact List.flatMap_eq_nil_iff.mpr fun _ _ => rfl
  · exact (List.filterMap_eq_flatMap_toList _ _).symm

theorem runCommand_enlists (world : World) (text : String) :
    Enlists (session.entries (.runCommand text)) session
      (session.runCommand database.recorded world text).2 := by
  unfold entries
  split <;> rename_i dry
  · unfold runCommand
    dsimp only [info, logged]
    rw [if_pos dry]
    exact .same rfl
  · exact ⟨_, runCommand_writes database world session (by simpa using dry) text, rfl⟩

theorem runStep_enlists (world : World) (step : Step) :
    Enlists (session.entries step) session (session.runStep database.recorded world step).2 := by
  have acts := (runStep_acts database.recorded world session step).reach
  have none_else (silent : step.command? = none)
      (others : ∀ call, step.mayCall call → call.audited? = none) :
      Enlists (session.entries step) session (session.runStep database.recorded world step).2 := by
    unfold entries
    rw [silent, Option.toList_none, ite_self]
    exact .nothing others acts
  cases step with
  | runCommand text => exact runCommand_enlists world text
  | list =>
      refine none_else rfl ?_
      rintro call (rfl | ⟨_, _, rfl⟩) <;> rfl
  | execFile | loadCsv =>
      refine none_else rfl ?_
      rintro call ⟨_, rfl⟩
      rfl
  | execScript | begin | commit | rollback =>
      refine none_else rfl ?_
      rintro call rfl
      rfl
  | shellFile | shell | enterFile | leaveFile => exact none_else rfl nofun

/-- Of these steps, the first so many are those that are come to. -/
def ComesTo (database : Database State) (surroundings : Surroundings) (index : Nat)
    (steps : List Step) (session : Session State) (count : Nat) : Prop :=
  ∀ number < steps.length, number < count ↔
    ∃ stage, session.runSteps database surroundings index (steps.take number) = (.ok (), stage)

/-- The steps that are come to enter their commands, each once and in order. -/
theorem runSteps_enlists (index : Nat) (steps : List Step) :
    ∃ count, ComesTo database.recorded surroundings index steps session count ∧
      Enlists ((steps.take count).flatMap session.entries) session
        (session.runSteps database.recorded surroundings index steps).2 := by
  induction steps generalizing index session with
  | nil => exact ⟨0, nofun, .same rfl⟩
  | cons step rest ih =>
      have entered : Enlists (session.entries step) session
          (session.runStep database.recorded (surroundings index) step).2 :=
        runStep_enlists (surroundings index) step
      have dry := (runStep_acts database.recorded (surroundings index) session step).dryRun
      unfold runSteps
      rcases ran : session.runStep database.recorded (surroundings index) step
        with ⟨failure | _, after⟩ <;> rw [ran] at entered dry
      · refine ⟨1, ?_, by simpa using entered⟩
        intro number within
        cases number with
        | zero => exact ⟨fun _ => ⟨session, rfl⟩, fun _ => Nat.zero_lt_one⟩
        | succ number => simp [runSteps, ran]
      · obtain ⟨count, comes, later⟩ := @ih after (index + 1)
        refine ⟨count + 1, ?_, ?_⟩
        · intro number within
          cases number with
          | zero => exact ⟨fun _ => ⟨session, rfl⟩, fun _ => Nat.succ_pos _⟩
          | succ number =>
              have here := comes number (Nat.lt_of_succ_lt_succ within)
              rw [Nat.succ_lt_succ_iff, here, List.take_succ_cons]
              simp only [runSteps, ran]
        · have same : after.entries = session.entries := by
            funext step
            unfold entries
            rw [dry]
          rw [List.take_succ_cons, List.flatMap_cons]
          rw [same] at later
          exact entered.trans later

theorem secured_enlists {answer : Except DatabaseError Unit}
    (secured : session.secured database.recorded = (answer, held)) : Enlists [] session held := by
  unfold Session.secured at secured
  split at secured
  · obtain ⟨-, rfl⟩ := Prod.mk.inj secured
    exact ⟨[.lock], rfl, rfl⟩
  · obtain ⟨-, rfl⟩ := Prod.mk.inj secured
    exact .same rfl

theorem started_enlists {answer : Except RunError Unit}
    (ready : session.started database.recorded = (answer, start)) : Enlists [] session start := by
  have opened : Enlists [] session.taken (session.taken.begin database.recorded).2 :=
    (begin_switch database.recorded session.taken).enlists rfl
  rw [started_taken] at ready
  split at ready
  · rw [ready] at opened
    exact opened
  · obtain ⟨-, rfl⟩ := Prod.mk.inj ready
    exact .same rfl

theorem Enters.dryRun (enters : session.Enters database.recorded start) :
    start.context.dryRun = session.context.dryRun := by
  obtain ⟨held, secured, ready⟩ := enters
  have begun := ((begin_switch database.recorded held.taken).acts database.recorded _ rfl).dryRun
  rw [← secured_context secured]
  rw [started_taken] at ready
  split at ready
  · rw [ready] at begun
    exact begun
  · obtain ⟨-, rfl⟩ := Prod.mk.inj ready
    rfl

theorem abort_enlists (session : Session (State × List Database.Call)) :
    Enlists [] session (session.abort database.recorded) := by
  have switched := (rollback_switch database.recorded session).enlists rfl
  unfold abort
  split
  · split <;> rename_i ended <;> rw [ended] at switched
    · exact switched
    · exact switched.andThen (.same rfl)
  · exact .same rfl

theorem closed_enlists (wrapped : Bool) (ran : Result (State × List Database.Call) Unit) :
    Enlists [] ran.2 (closed database.recorded wrapped ran).2 := by
  obtain ⟨answer, after⟩ := ran
  have committed : Enlists [] after (after.commit database.recorded).2 :=
    (commit_switch database.recorded after).enlists rfl
  unfold closed
  split
  · cases answer with
    | error failure => exact abort_enlists after
    | ok reply =>
        dsimp only
        split <;> rename_i ended <;> rw [ended] at committed
        · exact committed.andThen (abort_enlists _)
        · exact committed
  · exact .same rfl

theorem answered_enlists (locked : Bool) (ran : Result (State × List Database.Call) Nat) :
    Enlists [] ran.2 (answered database.recorded locked ran).2 := by
  have after : (answered database.recorded locked ran).2.database =
      if locked then (database.recorded.perform .unlock ran.2.database).2 else ran.2.database :=
    answered_database locked ran
  split at after
  · exact ⟨[.unlock], by rw [after]; rfl, rfl⟩
  · exact .same after

/-- A run enters the commands that it comes to, each once and in order, and nothing else. -/
theorem execute_enlists (database : Database State) (surroundings : Surroundings)
    (session : Session (State × List Database.Call)) :
    ∃ count,
      (∀ number < session.context.queue.length, number < count ↔
        ∃ stage, session.Stage database.recorded surroundings number stage) ∧
      Enlists ((session.context.queue.steps.take count).flatMap session.entries) session
        (session.execute database.recorded surroundings).2 := by
  have nowhere {after : Session (State × List Database.Call)}
      (never : ∀ start, ¬ session.Enters database.recorded start)
      (silent : Enlists [] session after) :
      ∃ count, (∀ number < session.context.queue.length, number < count ↔
          ∃ stage, session.Stage database.recorded surroundings number stage) ∧
        Enlists ((session.context.queue.steps.take count).flatMap session.entries) session
          after := by
    refine ⟨0, fun number _ => ⟨nofun, ?_⟩, silent⟩
    rintro ⟨stage, start, enters, -⟩
    exact absurd enters (never start)
  have executed := execute_executed database.recorded surroundings session
  generalize session.execute database.recorded surroundings = ran at executed ⊢
  cases executed with
  | notSecured refused =>
      refine nowhere ?_ ((secured_enlists refused).andThen (.same rfl))
      rintro start ⟨held, secured, -⟩
      rw [refused] at secured
      cases (Prod.mk.inj secured).1
  | notStarted secured refused =>
      refine nowhere ?_ ((secured_enlists secured).andThen
        ((started_enlists refused).andThen (answered_enlists _ _)))
      rintro start ⟨held, securedToo, started⟩
      rw [secured] at securedToo
      obtain ⟨-, rfl⟩ := Prod.mk.inj securedToo
      rw [refused] at started
      cases (Prod.mk.inj started).1
  | @entered start enters =>
      let steps := session.context.queue.steps
      obtain ⟨count, comes, entered⟩ : ∃ count,
          ComesTo database.recorded surroundings 0 steps start count ∧
            Enlists ((steps.take count).flatMap start.entries) start
              (start.runSteps database.recorded surroundings 0 steps).2 := runSteps_enlists 0 steps
      obtain ⟨held, secured, ready⟩ := enters
      refine ⟨count, fun number within => (comes number within).trans ?_, ?_⟩
      · constructor
        · rintro ⟨stage, ran⟩
          exact ⟨stage, start, ⟨held, secured, ready⟩, ran⟩
        · rintro ⟨stage, startToo, ⟨heldToo, securedToo, readyToo⟩, ran⟩
          rw [secured] at securedToo
          obtain ⟨-, rfl⟩ := Prod.mk.inj securedToo
          rw [ready] at readyToo
          obtain ⟨-, rfl⟩ := Prod.mk.inj readyToo
          exact ⟨stage, ran⟩
      · have same : start.entries = session.entries := by
          have kept := Enters.dryRun ⟨held, secured, ready⟩
          funext step
          unfold entries
          rw [kept]
        rw [same] at entered
        have ran := (entered.before (started_enlists ready)).before (secured_enlists secured)
        have ended : Enlists [] (start.runSteps database.recorded surroundings 0 steps).2
            (batch database.recorded surroundings session.context start).2 :=
          closed_enlists session.context.isWrapped _
        exact (ran.andThen ended).andThen (answered_enlists session.needsLock _)

end Entries

/-- A run enters the commands that it comes to into the audit, each once and in order, and nothing
else; in a dry run it enters none. From a state of another database that differs in the calls for
the audit alone, the run answers the same, shows the same, leaves the same context and makes the
same other calls. -/
theorem execute_audit_apart (first : Database First) (surroundings : Surroundings)
    (session : Session (First × List Database.Call)) :
    let ran := session.execute first.recorded surroundings
    ∃ made count,
      ran.2.database.2 = session.database.2 ++ made ∧
      (∀ number < session.context.queue.length, number < count ↔
        ∃ stage, session.Stage first.recorded surroundings number stage) ∧
      made.filterMap Database.Call.audited? =
        (if session.context.dryRun then []
          else (session.context.queue.steps.take count).filterMap Step.command?) ∧
      ∀ (Second : Type) (second : Database Second) (alike : First → Second → Prop)
        (state : Second × List Database.Call),
        AuditApart first second alike → alike session.database.1 state.1 →
          let other := (session.inState state).execute second.recorded surroundings
          other.1 = ran.1 ∧ other.2.output = ran.2.output ∧ other.2.context = ran.2.context ∧
            ∃ more, other.2.database.2 = state.2 ++ more ∧
              Database.apartFromAudit more = Database.apartFromAudit made := by
  obtain ⟨count, comes, made, record, entered⟩ := execute_enlists first surroundings session
  refine ⟨made, count, record, comes, entered.trans (flatMap_entries session _), ?_⟩
  intro Second second alike state apart same
  have twins : Twins (AlikeSince alike session.database.2 state.2) session
      (session.inState state) := over_twins ⟨same, [], [], by simp, by simp, rfl⟩
  obtain ⟨answer, after, twin, here, there, later⟩ :=
    twins.execute (apart.recorded session.database.2 state.2) surroundings
  obtain ⟨-, madeToo, more, recordToo, register, others⟩ := later.database
  dsimp only
  rw [here] at record ⊢
  rw [there]
  refine ⟨rfl, later.output, later.context, more, register, ?_⟩
  rw [others, List.append_cancel_left (recordToo.symm.trans record)]

/-- A nested file of two commands, of which the second runs a script that is refused. -/
def entered : Session (Script.State × List Database.Call) where
  context :=
    { queue := Queue.append {}
        [.runCommand "seed database", .enterFile ⟨"seeds/a.ddsl", none⟩, .runCommand "sql first",
          .execScript "first", .runCommand "sql second", .execScript "second",
          .leaveFile ⟨"seeds/a.ddsl", none⟩, .runCommand "commit"] }
  sources := { drivers := [], base := { scheme := "file", path := ".", fragment := none } }
  database :=
    ({ rules := [({ call := "exec", part := "second", error := .driver "refused" }, 0)] }, [])

/-- The same script, but no user is told, and the audit is full after one entry. -/
def secretive : Script.State :=
  { rules :=
      [({ call := "record_audit", after := 1, error := .driver "full" }, 0),
        ({ call := "exec", part := "second", error := .driver "refused" }, 0),
        ({ call := "current_user", error := .driver "unknown" }, 0)] }

/-- What becomes of the nested file on that script. -/
def unentered : Except SessionError Nat × Session (Script.State × List Database.Call) :=
  (entered.inState (secretive, [])).execute Script.database.recorded fun _ => {}

theorem execute_audit_apart_entered :
    Script.AlikeButAudit entered.database.1 secretive ∧
      (∃ made, made.filterMap Database.Call.audited? =
          ["seed database", "sql first", "sql second"] ∧
        Database.apartFromAudit unentered.2.database.2 = Database.apartFromAudit made) ∧
      unentered.1 = .error (.run (.sql "sql script" (.driver "refused"))) ∧
      unentered.2.context.depth = 1 := by
  have alike : Script.AlikeButAudit entered.database.1 secretive := ⟨_, _, _, rfl, rfl⟩
  have refused : (entered.execute Script.database.recorded fun _ => {}).1 =
      .error (.run (.sql "sql script" (.driver "refused"))) := by decide +kernel
  have deep : (entered.execute Script.database.recorded fun _ => {}).2.context.depth = 1 := by
    decide +kernel
  have calls : (entered.execute Script.database.recorded fun _ => {}).2.database.2.filterMap
      Database.Call.audited? = ["seed database", "sql first", "sql second"] := by decide +kernel
  obtain ⟨made, -, record, -, -, apart⟩ :=
    execute_audit_apart Script.database (fun _ => {}) entered
  obtain ⟨same, -, context, more, register, others⟩ :=
    apart _ Script.database _ (secretive, []) Script.auditApart alike
  refine ⟨alike, ⟨made, ?_, ?_⟩, same.trans refused, ?_⟩
  · rw [← calls, record]
    rfl
  · rw [← others]
    exact congrArg _ register
  · exact (congrArg Context.depth context).trans deep

end Session

end Rollout
