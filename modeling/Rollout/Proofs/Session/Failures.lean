import Rollout.Proofs.Outcome
import Rollout.Proofs.Session.Stages

/-!
What runs fail for. They fail if a call, a source, a program or a write does, and if a transaction
is to be opened or closed out of turn. None but a step about a file can fail for the registry, and
only if the source tree at the ref of its file cannot be opened.
-/

namespace Rollout

/-- Is it a call, a source, a program or a write that has failed? Otherwise a transaction was to be
opened or closed out of turn. -/
def RunError.isOutside : RunError → Bool
  | transaction _ => false
  | _ => true

def SessionError.isOutside : SessionError → Bool
  | run failure => failure.isOutside
  | _ => true

namespace Table

variable {table : Table}

theorem csvRows_ok {headers : Nat} {rows : List (List String)}
    (even : ∀ row ∈ rows, row.length = headers) :
    ∃ written, csvRows headers rows = .ok written := by
  induction rows with
  | nil => exact ⟨[], rfl⟩
  | cons row rest ih =>
      obtain ⟨fits, later⟩ := List.forall_mem_cons.mp even
      obtain ⟨written, rows⟩ := ih later
      exact ⟨csvRecord row :: written, by rw [csvRows, if_pos fits, rows]; rfl⟩

/-- A table can be written in every format if its rows are as long as its header. -/
theorem written_ok (even : ∀ row ∈ table.rows, row.length = table.headers.length)
    (format : Format) : ∃ text, table.written format = .ok text := by
  cases format with
  | text => exact ⟨_, rfl⟩
  | csv =>
      obtain ⟨rows, written⟩ := csvRows_ok even
      exact ⟨_, by rw [Table.written, toCsv, written]; rfl⟩
  | json => exact ⟨_, rfl⟩

end Table

namespace Session

variable {State : Type}

/-- No call, source, program or write has failed. -/
def Undisturbed {Answer : Type} (answer : Except SessionError Answer) : Prop :=
  ∀ failure, answer = .error failure → failure.isOutside = false

/-- What a step that neither opens nor closes a transaction can fail for: something that it needs
does fail so. -/
inductive Cause (database : Database State) (world : World) (session : Session State)
    (step : Step) : RunError → Prop where
  | sql {error : DatabaseError} (origin : String)
      (fails : database.Fails step.mayCall session.database error) :
      Cause database world session step (.sql origin error)
  | load {error : DatabaseError} (file : String)
      (fails : database.Fails step.mayCall session.database error) :
      Cause database world session step (.load file error)
  | database {error : DatabaseError}
      (fails : database.Fails step.mayCall session.database error) :
      Cause database world session step (.database error)
  | shell {invocation : Invocation} {status : ExitStatus} {output errors : String}
      (command trimmed : String)
      (ended : world.execute invocation = .ended status output errors)
      (failed : status.succeeded = false) :
      Cause database world session step (.shell command status trimmed)
  | notStarted {invocation : Invocation} {fault : FileFault} (command : String)
      (missing : world.execute invocation = .notStarted fault) :
      Cause database world session step (.notStarted command fault)
  | output {fault : String} (faulty : world.sinkFault = some fault) :
      Cause database world session step (.output fault)
  | unread {file : FileRef} {tree : Tree} {error : SourceError} (about : step.file? = some file)
      (opened : (session.sources.get world.workspace file.ref).1 = .ok tree)
      (refused : (tree.snapshot world.workspace).read file.path = .error error) :
      Cause database world session step (.source error)
  | notLocal {file : FileRef} {tree : Tree} {error : SourceError} (about : step.file? = some file)
      (opened : (session.sources.get world.workspace file.ref).1 = .ok tree)
      (refused : (tree.snapshot world.workspace).localFile file.path = .error error) :
      Cause database world session step (.source error)
  | registry {file : FileRef} {error : RegistryError} (about : step.file? = some file)
      (refused : (session.sources.get world.workspace file.ref).1 = .error error) :
      Cause database world session step (.registry error)

theorem Cause.isOutside {database : Database State} {world : World} {session : Session State}
    {step : Step} {failure : RunError} (cause : Cause database world session step failure) :
    failure.isOutside = true := by
  cases cause <;> rfl

/-- It can only fail for what a step can fail for that is run in the session. -/
def FailsFor {Answer : Type} (database : Database State) (world : World) (first : Session State)
    (step : Step) (ran : Except RunError Answer × Session State) : Prop :=
  ∀ failure, ran.1 = .error failure → Cause database world first step failure

namespace FailsFor

variable {Answer : Type} {database : Database State} {world : World} {first after : Session State}
  {step : Step}

theorem done {answer : Answer} : FailsFor database world first step (.ok answer, after) := nofun

theorem failed {failure : RunError} (cause : Cause database world first step failure) :
    FailsFor database world first step ((.error failure : Except RunError Answer), after) := by
  rintro _ ⟨⟩
  exact cause

end FailsFor

section Steps

variable (database : Database State) (world : World) {step : Step} {first : Session State}
  (session : Session State)

theorem readFile_fails {file : FileRef} (about : step.file? = some file) :
    FailsFor database world session step (session.readFile world file) := by
  unfold readFile
  split <;> rename_i opened <;> obtain ⟨found, rfl⟩ := Prod.mk.inj opened
  · exact .failed (.registry about found)
  · rename_i tree
    cases refused : (tree.snapshot world.workspace).read file.path with
    | error fault => exact .failed (.unread about found refused)
    | ok text => exact .done

theorem localFile_fails {file : FileRef} (about : step.file? = some file) :
    FailsFor database world session step (session.localFile world file) := by
  unfold localFile
  split <;> rename_i opened <;> obtain ⟨found, rfl⟩ := Prod.mk.inj opened
  · exact .failed (.registry about found)
  · rename_i tree
    cases refused : (tree.snapshot world.workspace).localFile file.path with
    | error fault => exact .failed (.notLocal about found refused)
    | ok found => exact .done

theorem executeSql_fails {sql : String} (allowed : step.mayCall (.exec sql))
    (reached : database.Reach step.mayCall first.database session.database) (origin : String) :
    FailsFor database world first step (session.executeSql database origin sql) := by
  unfold executeSql
  split
  · exact .done
  · split <;> rename_i called
    · exact .done
    · exact .failed (.sql _ (.after reached (.single allowed (call_parts called).1)))

theorem executeFile_fails (file : FileRef) :
    FailsFor database world session (.execFile file) (session.executeFile database world file) := by
  have reads : FailsFor database world session (.execFile file) _ :=
    readFile_fails database world session rfl
  have acts : Acts database (Step.execFile file).mayCall session _ :=
    readFile_acts database world session _ file
  unfold executeFile
  split
  · exact .done
  · split <;> rename_i found <;> rw [found] at reads acts
    · exact .failed (reads _ rfl)
    · rename_i sql after
      have allowed : (Step.execFile file).mayCall (.exec sql) := ⟨sql, rfl⟩
      exact executeSql_fails database world after allowed acts.reach _

theorem runProgram_fails (program : String) (arguments : List String) (script : Option Content) :
    FailsFor database world first step (session.runProgram world program arguments script) := by
  unfold runProgram
  dsimp only
  split
  · exact .done
  · split <;> rename_i ended
    · exact .failed (.notStarted _ ended)
    · split <;> rename_i status
      · exact .done
      · exact .failed (.shell _ _ ended (by simpa using status))

theorem runShellFile_fails (file : FileRef) :
    FailsFor database world session (.shellFile file) (session.runShellFile world file) := by
  have finds : FailsFor database world session (.shellFile file) _ :=
    localFile_fails database world session rfl
  unfold runShellFile
  split
  · exact .done
  · split <;> rename_i found <;> rw [found] at finds
    · exact .failed (finds _ rfl)
    · exact runProgram_fails database world _ _ _ _

theorem loadCsv_fails (file : FileRef) (schema table : String) :
    FailsFor database world session (.loadCsv file schema table)
      (session.loadCsv database world file schema table) := by
  have finds : FailsFor database world session (.loadCsv file schema table) _ :=
    localFile_fails database world session rfl
  have acts : Acts database (Step.loadCsv file schema table).mayCall session _ :=
    localFile_acts database world session _ file
  unfold loadCsv
  split
  · exact .done
  · split <;> rename_i found <;> rw [found] at finds acts
    · exact .failed (finds _ rfl)
    · rename_i source after
      have allowed : (Step.loadCsv file schema table).mayCall (.loadCsv source schema table {}) :=
        ⟨source, rfl⟩
      split <;> rename_i called
      · exact .failed (.load _ (.after acts.reach (.single allowed (call_parts called).1)))
      · exact .done

theorem listItems_fails
    (allowed : ∀ schema kind, step.mayCall (.schemaItems schema kind))
    (reached : database.Reach step.mayCall first.database session.database)
    (kind : Option ItemKind) (schemas : List String) :
    FailsFor database world first step (session.listItems database kind schemas) := by
  induction schemas generalizing session with
  | nil => exact .done
  | cons schema rest ih =>
      unfold listItems
      split <;> rename_i called
      · exact .failed (.database (.after reached (.single (allowed _ _) (call_parts called).1)))
      · rename_i items after
        have acts : Acts database step.mayCall session after := .ofCall (allowed _ _) called
        have later := ih after (reached.trans acts.reach)
        rcases asked : after.listItems database kind rest with ⟨failure | more, last⟩ <;>
          rw [asked] at later
        · exact .failed (later _ rfl)
        · exact .done

theorem listTable_fails (kind : ListKind) (schemas shown : List String) :
    FailsFor database world session (.list kind shown)
      (session.listTable database kind schemas) := by
  unfold listTable
  split
  · exact .done
  · split <;> rename_i called
    · exact .failed (.database (.single (Or.inl rfl) (call_parts called).1))
    · exact .done
  · have allowed (schema : String) (part : Option ItemKind) :
        (Step.list kind shown).mayCall (.schemaItems schema part) := Or.inr ⟨schema, part, rfl⟩
    have shows : FailsFor database world session (.list kind shown) _ :=
      listItems_fails database world session allowed (.refl _) kind.itemKind? schemas
    rcases asked : session.listItems database kind.itemKind? schemas with
      ⟨failure | items, after⟩ <;> rw [asked] at shows
    · exact .failed (shows _ rfl)
    · exact .done

/-- The rows that a list shows are as long as its header. -/
theorem listTable_even {kind : ListKind} {schemas : List String} {table : Table}
    {session after : Session State}
    (found : session.listTable database kind schemas = (.ok table, after)) :
    ∀ row ∈ table.rows, row.length = table.headers.length := by
  intro row member
  unfold listTable at found
  split at found
  · cases found
    obtain ⟨schema, -, rfl⟩ := List.mem_map.mp member
    rfl
  · split at found <;> cases found
    obtain ⟨key, -, rfl⟩ := List.mem_map.mp member
    rfl
  · obtain ⟨items, -, rfl⟩ := Outcome.map_eq_ok.mp (Prod.mk.inj found).1
    obtain ⟨item, -, rfl⟩ := List.mem_map.mp member
    rfl

/-- A list fails if a call or a write does; what it shows can be written in every format. -/
theorem list_fails (kind : ListKind) (schemas : List String) :
    FailsFor database world session (.list kind schemas)
      (session.list database world kind schemas) := by
  have shows := listTable_fails database world session kind schemas schemas
  unfold list
  split <;> rename_i found <;> rw [found] at shows
  · exact .failed (shows _ rfl)
  · rename_i table after
    obtain ⟨text, written⟩ := Table.written_ok (listTable_even database found) after.context.format
    rw [written]
    dsimp only [write]
    split <;> rename_i fault
    · exact .failed (.output fault)
    · exact .done

theorem runStep_fails (ordinary : step.isTransaction = false) :
    FailsFor database world session step (session.runStep database world step) := by
  cases step with
  | runCommand text =>
      unfold runStep runCommand
      dsimp only
      split
      · exact .done
      · split <;> exact .done
  | execFile file => exact executeFile_fails database world session file
  | execScript sql =>
      have allowed : (Step.execScript sql).mayCall (.exec sql) := rfl
      exact executeSql_fails database world session allowed (.refl _) _
  | shellFile file => exact runShellFile_fails database world session file
  | shell program arguments => exact runProgram_fails database world session program arguments none
  | loadCsv file schema table => exact loadCsv_fails database world session file schema table
  | begin => cases ordinary
  | commit => cases ordinary
  | rollback => cases ordinary
  | enterFile file => exact .done
  | leaveFile file => exact .done
  | list kind schemas => exact list_fails database world session kind schemas

/-- A step that opens or closes a transaction is refused, or its call fails. -/
theorem Switch.error {call : Database.Call} {wanted : Bool} {failure : RunError}
    {after : Session State} (switch : Switch database session call wanted (.error failure, after)) :
    (∃ error, failure = .transaction error) ∨
      ∃ error, failure = .database error ∧ database.Fails (· = call) session.database error := by
  cases switch with
  | refused error _ => exact .inl ⟨error, rfl⟩
  | failed error _ _ called _ =>
      exact .inr ⟨error, rfl, .single rfl (congrArg Prod.fst called)⟩

/-- A step is refused, or fails for something that it needs. -/
theorem runStep_cause {failure : RunError} {after : Session State}
    (fails : session.runStep database world step = (.error failure, after)) :
    (∃ error, failure = .transaction error) ∨ Cause database world session step failure := by
  have switches {call : Database.Call} {wanted : Bool} (only : step.mayCall = (· = call))
      (switch : Switch database session call wanted (.error failure, after)) :
      (∃ error, failure = .transaction error) ∨ Cause database world session step failure := by
    rcases switch.error database session with refused | ⟨error, rfl, failed⟩
    · exact .inl refused
    · exact .inr (.database (by rwa [only]))
  have ordinary (plain : step.isTransaction = false) : Cause database world session step failure :=
    runStep_fails database world session plain failure (congrArg Prod.fst fails)
  cases step with
  | begin =>
      have switch := begin_switch database session
      rw [show session.begin database = _ from fails] at switch
      exact switches rfl switch
  | commit =>
      have switch := commit_switch database session
      rw [show session.commit database = _ from fails] at switch
      exact switches rfl switch
  | rollback =>
      have switch := rollback_switch database session
      rw [show session.rollback database = _ from fails] at switch
      exact switches rfl switch
  | _ => exact .inr (ordinary rfl)

end Steps

section Runs

variable {database : Database State} {surroundings : Surroundings}
  {session held start after : Session State}

theorem ActsInBatch.inRun {first second : Session State}
    (acts : ActsInBatch database first second) :
    database.Reach (·.inRun = true) first.database second.database :=
  acts.reach.mono fun _ => Database.Call.inRun_of_inBatch

theorem secured_reach {answer : Except DatabaseError Unit}
    (secured : session.secured database = (answer, held)) :
    database.Reach (·.inRun = true) session.database held.database := by
  unfold Session.secured at secured
  split at secured <;> obtain ⟨-, rfl⟩ := Prod.mk.inj secured
  · exact .single .lock rfl
  · exact .refl _

/-- All that running what waits can fail for. What is not refused needed something that does fail
so: the lock, the transaction of the batch, or a step that the run comes to. -/
inductive Failed (database : Database State) (surroundings : Surroundings)
    (session : Session State) : SessionError → Prop where
  | lock {error : DatabaseError}
      (fails : database.Fails (·.inRun = true) session.database error) :
      Failed database surroundings session (.database error)
  | transaction {error : DatabaseError}
      (fails : database.Fails (·.inRun = true) session.database error) :
      Failed database surroundings session (.run (.database error))
  | refused (error : TransactionError) :
      Failed database surroundings session (.run (.transaction error))
  | step {number : Nat} {stage : Session State} {step : Step} {failure : RunError}
      (reached : session.Stage database surroundings number stage)
      (within : session.context.queue.steps[number]? = some step)
      (cause : Cause database (surroundings number) stage step failure) :
      Failed database surroundings session (.run failure)

theorem FailsAt.failed {number : Nat} {failure : RunError}
    (fails : session.FailsAt database surroundings number failure) :
    session.Failed database surroundings (.run failure) := by
  obtain ⟨stage, step, after, reached, within, ran⟩ := fails
  rcases runStep_cause database _ stage ran with ⟨error, rfl⟩ | cause
  · exact .refused error
  · exact .step reached within cause

theorem Failed.of_switch {call : Database.Call} {wanted : Bool} {failure : RunError}
    {current : Session State}
    (switch : Switch database current call wanted (.error failure, after))
    (inRun : call.inRun = true)
    (reached : database.Reach (·.inRun = true) session.database current.database) :
    session.Failed database surroundings (.run failure) := by
  rcases switch.error database current with ⟨error, rfl⟩ | ⟨error, rfl, fails⟩
  · exact .refused error
  · exact .transaction (.after reached (fails.mono (by rintro _ rfl; exact inRun)))

theorem started_error {failure : RunError}
    (refused : held.started database = (.error failure, after)) :
    Switch database held.taken .begin false (.error failure, after) := by
  rw [started_taken] at refused
  split at refused
  · have switch := begin_switch database held.taken
    rw [refused] at switch
    exact switch
  · cases (Prod.mk.inj refused).1

theorem closed_error {wrapped : Bool} {ran : Result State Unit} {failure : RunError}
    (failed : (closed database wrapped ran).1 = .error failure) :
    ran.1 = .error failure ∨
      ∃ stopped, Switch database ran.2 .commit true (.error failure, stopped) := by
  unfold closed at failed
  split at failed
  · rcases ran with ⟨other | _, worked⟩
    · exact .inl failed
    · have switch := commit_switch database worked
      dsimp only at failed
      split at failed <;> rename_i ended <;> cases failed
      rw [ended] at switch
      exact .inr ⟨_, switch⟩
  · exact .inl failed

theorem started_reach (ready : held.started database = (.ok (), start)) :
    database.Reach (·.inRun = true) held.database start.database := by
  have opened : ActsInBatch database _ _ :=
    (begin_switch database (held.withContext { held.context.emptied with depth := 0 })).inBatch
      database _ rfl rfl
  unfold started at ready
  dsimp only at ready
  split at ready
  · rw [ready] at opened
    exact opened.inRun
  · obtain ⟨-, rfl⟩ := Prod.mk.inj ready
    exact .refl _

theorem Enters.reach (enters : session.Enters database start) :
    database.Reach (·.inRun = true) session.database start.database := by
  obtain ⟨held, secured, ready⟩ := enters
  exact (secured_reach secured).trans (started_reach ready)

theorem Enters.batch_reach (enters : session.Enters database start) (surroundings : Surroundings) :
    database.Reach (·.inRun = true) session.database
      (batch database surroundings session.context start).2.database := by
  obtain ⟨held, secured, ready⟩ := enters
  have ran := (runQueue_follows database surroundings held).reach
  rw [runQueue_stages, ready, secured_context secured] at ran
  exact (secured_reach secured).trans (ran.mono fun _ => Database.Call.inRun_of_inBatch)

theorem Enters.batch_error {failure : RunError} (enters : session.Enters database start)
    (failed : (batch database surroundings session.context start).1 = .error failure) :
    session.Failed database surroundings (.run failure) := by
  rcases closed_error (Outcome.map_eq_error.mp failed) with steps | ⟨stopped, switch⟩
  · obtain ⟨number, step, stage, within, before, fails⟩ :=
      runSteps_error_iff.mp (Prod.ext steps rfl)
    rw [Nat.zero_add] at fails
    exact FailsAt.failed ⟨stage, step, _, ⟨start, enters, before⟩, within, fails⟩
  · have worked := runSteps_inBatch database surroundings start 0 session.context.queue.steps
    exact .of_switch switch rfl (enters.reach.trans worked.inRun)

theorem execute_error {failure : SessionError}
    (failed : (session.execute database surroundings).1 = .error failure) :
    session.Failed database surroundings failure := by
  have executed := execute_executed database surroundings session
  generalize session.execute database surroundings = answer at executed failed
  cases executed with
  | notSecured refused =>
      cases failed
      unfold Session.secured at refused
      split at refused
      · exact .lock (.single rfl (call_parts refused).1)
      · cases (Prod.mk.inj refused).1
  | notStarted secured refused =>
      rw [answered_error] at failed
      cases failed
      have reached := secured_reach secured
      exact .of_switch (started_error refused) rfl reached
  | @entered start enters =>
      rcases ran : batch database surroundings session.context start with ⟨fault | count, last⟩ <;>
        rw [ran] at failed
      · rw [answered_error] at failed
        cases failed
        exact enters.batch_error (congrArg Prod.fst ran)
      · rcases answered_ok database session.needsLock count last with done | ⟨error, refused, fails⟩
        · cases done.symm.trans failed
        · cases refused.symm.trans failed
          have reached := enters.batch_reach surroundings
          rw [ran] at reached
          exact .lock (.after reached (fails.mono (by rintro _ rfl; rfl)))

end Runs

end Session

end Rollout
