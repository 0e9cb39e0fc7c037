import Rollout.Proofs.Database.Calls
import Rollout.Session.Execute

/-!
What the operations of a session leave alone. A step acts on the database by calls of its own kind
only; of the context it changes the depth, and whether a transaction counts as open if it is a step
that opens or closes one.
-/

namespace Rollout

/-- The calls that running a step may make. -/
def Step.mayCall : Step → Database.Call → Prop
  | runCommand text, call =>
      call = .currentUser ∨ ∃ entry : AuditEntry, entry.command = text ∧ call = .recordAudit entry
  | execFile _, call => ∃ sql, call = .exec sql
  | execScript sql, call => call = .exec sql
  | loadCsv _ schema table, call => ∃ file, call = .loadCsv file schema table {}
  | begin, call => call = .begin
  | commit, call => call = .commit
  | rollback, call => call = .rollback
  | list _ _, call => call = .foreignKeys ∨ ∃ schema kind, call = .schemaItems schema kind
  | shellFile _, _ | shell _ _, _ | enterFile _, _ | leaveFile _, _ => False

/-- Does the step open or close a transaction? -/
def Step.isTransaction : Step → Bool
  | begin | commit | rollback => true
  | _ => false

theorem Step.mayCall_isData {step : Step} (ordinary : step.isTransaction = false)
    {call : Database.Call} (made : step.mayCall call) : call.isData = true := by
  cases step <;> simp only [mayCall] at made
  case runCommand => rcases made with rfl | ⟨_, -, rfl⟩ <;> rfl
  case list => rcases made with rfl | ⟨_, _, rfl⟩ <;> rfl
  case execFile => obtain ⟨_, rfl⟩ := made; rfl
  case loadCsv => obtain ⟨_, rfl⟩ := made; rfl
  case execScript => subst made; rfl
  all_goals cases ordinary

namespace Session

variable {State : Type}

/-- The second session follows from the first by database calls that may be made. Of the context
only the place in a run may be another; calls on data leave the transaction as it is. -/
structure Acts (database : Database State) (may : Database.Call → Prop)
    (before after : Session State) : Prop where
  reach : database.Reach may before.database after.database
  context : after.context =
    { before.context with
      inTransaction := after.context.inTransaction, depth := after.context.depth }
  steady : (∀ call, may call → call.isData = true) →
    after.context.inTransaction = before.context.inTransaction

namespace Acts

variable {database : Database State} {may more : Database.Call → Prop}
  {first second third : Session State}

theorem ofReach (reach : database.Reach may first.database second.database)
    (same : second.context = first.context) : Acts database may first second :=
  ⟨reach, by rw [same], fun _ => by rw [same]⟩

theorem refl (session : Session State) : Acts database may session session :=
  .ofReach (.refl _) rfl

theorem trans (start : Acts database may first second) (rest : Acts database may second third) :
    Acts database may first third := by
  refine ⟨start.reach.trans rest.reach, ?_, ?_⟩
  · have later := rest.context
    rw [start.context] at later
    exact later
  · intro data
    exact (rest.steady data).trans (start.steady data)

theorem mono (wider : ∀ call, may call → more call) (acts : Acts database may first second) :
    Acts database more first second :=
  ⟨acts.reach.mono wider, acts.context, fun data =>
    acts.steady fun call allowed => data call (wider call allowed)⟩

theorem logged (entry : LogEntry) : Acts database may first (first.logged entry) :=
  .ofReach (.refl _) rfl

theorem dryRun (acts : Acts database may first second) :
    second.context.dryRun = first.context.dryRun := by
  rw [acts.context]

theorem queue (acts : Acts database may first second) :
    second.context.queue = first.context.queue := by
  rw [acts.context]

theorem ofCall {call : Database.Call} {reply : Except DatabaseError call.Reply} (allowed : may call)
    (called : first.call database call = (reply, second)) : Acts database may first second := by
  obtain ⟨-, rfl⟩ := Prod.mk.inj called
  exact .ofReach (.single call allowed) rfl

theorem ofTree {world : World} {ref : Option String} {found : Except RegistryError Tree}
    (opened : first.tree world ref = (found, second)) : Acts database may first second := by
  obtain ⟨-, rfl⟩ := Prod.mk.inj opened
  exact .ofReach (.refl _) rfl

end Acts

variable (database : Database State) (world : World) (session : Session State)

theorem logLines_acts {may : Database.Call → Prop} (level : LogLevel) (text : String) :
    Acts database may session (session.logLines level text) := by
  unfold logLines
  generalize session.indent = indent
  generalize Text.lines text = lines
  induction lines generalizing session with
  | nil => exact .refl _
  | cons line rest ih => exact (Acts.logged _).trans (ih _)

theorem runCommand_acts (text : String) :
    Acts database (Step.runCommand text).mayCall session
      (session.runCommand database world text).2 := by
  have named : Acts database (Step.runCommand text).mayCall session
      (session.info (session.indent ++ text)) := .logged _
  unfold runCommand
  dsimp only
  split
  · exact named
  · have asked : Acts database (Step.runCommand text).mayCall session _ :=
      named.trans (.ofCall (Or.inl rfl) rfl)
    split <;> rename_i noted
    · exact asked.trans (.ofCall (Or.inr ⟨_, rfl, rfl⟩) noted)
    · exact (asked.trans (.ofCall (Or.inr ⟨_, rfl, rfl⟩) noted)).trans (.logged _)

theorem readFile_acts (may : Database.Call → Prop) (file : FileRef) :
    Acts database may session (session.readFile world file).2 := by
  unfold readFile
  split <;> rename_i opened <;> exact .ofTree opened

theorem localFile_acts (may : Database.Call → Prop) (file : FileRef) :
    Acts database may session (session.localFile world file).2 := by
  unfold localFile
  split <;> rename_i opened <;> exact .ofTree opened

theorem executeSql_acts (origin sql : String) :
    Acts database (· = .exec sql) session (session.executeSql database origin sql).2 := by
  unfold executeSql
  split
  · exact .logged _
  · split <;> rename_i called <;> exact .ofCall rfl called

theorem executeFile_acts (file : FileRef) :
    Acts database (Step.execFile file).mayCall session
      (session.executeFile database world file).2 := by
  unfold executeFile
  split
  · exact .logged _
  · have reads := readFile_acts database world session (Step.execFile file).mayCall file
    split <;> rename_i found <;> rw [found] at reads
    · exact reads
    · exact reads.trans ((executeSql_acts database _ _ _).mono fun _ same => ⟨_, same⟩)

theorem runProgram_acts {may : Database.Call → Prop} (program : String) (arguments : List String)
    (script : Option Content) :
    Acts database may session (session.runProgram world program arguments script).2 := by
  unfold runProgram
  dsimp only
  split
  · exact .logged _
  · split
    · exact .refl _
    · split
      · exact (logLines_acts database session _ _).trans (logLines_acts database _ _ _)
      · exact logLines_acts database session _ _

theorem runShellFile_acts {may : Database.Call → Prop} (file : FileRef) :
    Acts database may session (session.runShellFile world file).2 := by
  unfold runShellFile
  split
  · exact .logged _
  · have finds := localFile_acts database world session may file
    split <;> rename_i found <;> rw [found] at finds
    · exact finds
    · exact finds.trans (runProgram_acts database world _ _ _ _)

theorem loadCsv_acts (file : FileRef) (schema table : String) :
    Acts database (Step.loadCsv file schema table).mayCall session
      (session.loadCsv database world file schema table).2 := by
  unfold loadCsv
  split
  · exact .logged _
  · have finds := localFile_acts database world session
      (Step.loadCsv file schema table).mayCall file
    split <;> rename_i found <;> rw [found] at finds
    · exact finds
    · split <;> rename_i called
      · exact finds.trans (.ofCall ⟨_, rfl⟩ called)
      · exact (finds.trans (.ofCall ⟨_, rfl⟩ called)).trans (.logged _)

theorem listItems_acts {may : Database.Call → Prop} (kind : Option ItemKind)
    {schemas : List String} (allowed : ∀ schema ∈ schemas, may (.schemaItems schema kind)) :
    Acts database may session (session.listItems database kind schemas).2 := by
  induction schemas generalizing session with
  | nil => exact .refl _
  | cons schema rest ih =>
      obtain ⟨here, later⟩ := List.forall_mem_cons.mp allowed
      unfold listItems
      split <;> rename_i called
      · exact .ofCall here called
      · exact (Acts.ofCall here called).trans (ih _ later)

section List

variable {may : Database.Call → Prop} {kind : ListKind} {schemas : List String}
  (keys : kind = .foreignKeys → may .foreignKeys)
  (items : kind ≠ .schemas → kind ≠ .foreignKeys →
    ∀ schema ∈ schemas, may (.schemaItems schema kind.itemKind?))

include keys items

theorem listTable_acts : Acts database may session (session.listTable database kind schemas).2 := by
  unfold listTable
  split
  · exact .refl _
  · split <;> rename_i called <;> exact .ofCall (keys rfl) called
  · rename_i noSchemas noForeignKeys
    exact listItems_acts database session _ (items noSchemas noForeignKeys)

theorem list_acts : Acts database may session (session.list database world kind schemas).2 := by
  have shows := listTable_acts database session keys items
  unfold list
  split <;> rename_i found <;> rw [found] at shows
  · exact shows
  · split
    · exact shows
    · refine shows.trans ?_
      unfold write
      split
      · exact .refl _
      · exact .ofReach (.refl _) rfl

end List

/-- How an attempt to open or close the transaction ends. It is refused unless the transaction is
in the state `wanted`, and leaves it in the other one. -/
inductive Switch (call : Database.Call) (wanted : Bool) : Result State Unit → Prop where
  | refused (error : TransactionError) (other : session.context.inTransaction ≠ wanted) :
      Switch call wanted (.error (.transaction error), session)
  | logged (after : Session State) (ready : session.context.inTransaction = wanted)
      (dry : session.context.dryRun = true) (state : after.database = session.database)
      (context : after.context = { session.context with inTransaction := !wanted }) :
      Switch call wanted (.ok (), after)
  | failed (error : DatabaseError) (after : Session State)
      (ready : session.context.inTransaction = wanted)
      (called : database.perform call session.database = (.error error, after.database))
      (context : after.context = session.context) :
      Switch call wanted (.error (.database error), after)
  | moved (reply : call.Reply) (after : Session State)
      (ready : session.context.inTransaction = wanted)
      (wet : session.context.dryRun = false)
      (called : database.perform call session.database = (.ok reply, after.database))
      (context : after.context = { session.context with inTransaction := !wanted })
      (sources : after.sources = session.sources) : Switch call wanted (.ok (), after)

theorem begin_switch : Switch database session .begin false (session.begin database) := by
  unfold Session.begin
  split <;> rename_i state
  · exact .refused _ (by simp [state])
  · have ready : session.context.inTransaction = false := by simpa using state
    split <;> rename_i dry
    · exact .logged _ ready dry rfl rfl
    · split <;> rename_i called <;> obtain ⟨answer, rfl⟩ := Prod.mk.inj called
      · exact .failed _ _ ready (Prod.ext answer rfl) rfl
      · exact .moved () _ ready (by simpa using dry) (Prod.ext answer rfl) rfl rfl

theorem commit_switch : Switch database session .commit true (session.commit database) := by
  unfold Session.commit
  split <;> rename_i state
  · exact .refused _ (by simpa using state)
  · have ready : session.context.inTransaction = true := by simpa using state
    split <;> rename_i dry
    · exact .logged _ ready dry rfl rfl
    · split <;> rename_i called <;> obtain ⟨answer, rfl⟩ := Prod.mk.inj called
      · exact .failed _ _ ready (Prod.ext answer rfl) rfl
      · exact .moved () _ ready (by simpa using dry) (Prod.ext answer rfl) rfl rfl

theorem rollback_switch : Switch database session .rollback true (session.rollback database) := by
  unfold Session.rollback
  split <;> rename_i state
  · exact .refused _ (by simpa using state)
  · have ready : session.context.inTransaction = true := by simpa using state
    split <;> rename_i dry
    · exact .logged _ ready dry rfl rfl
    · split <;> rename_i called <;> obtain ⟨answer, rfl⟩ := Prod.mk.inj called
      · exact .failed _ _ ready (Prod.ext answer rfl) rfl
      · exact .moved () _ ready (by simpa using dry) (Prod.ext answer rfl) rfl rfl

theorem Switch.acts {call : Database.Call} {wanted : Bool} (management : call.isData = false)
    {result : Result State Unit} (switch : Switch database session call wanted result) :
    Acts database (· = call) session result.2 := by
  have made : database.Reach (· = call) session.database
      (database.perform call session.database).2 := .single call rfl
  -- the call is not one on data, so nothing is asked of the transaction
  have vacuous {after : Session State} (data : ∀ made, made = call → made.isData = true) :
      after.context.inTransaction = session.context.inTransaction := by
    rw [data call rfl] at management
    cases management
  cases switch with
  | refused error other => exact .refl _
  | logged after ready dry state context =>
      exact ⟨by rw [state]; exact .refl _, by rw [context], vacuous⟩
  | failed error after ready called context =>
      rw [called] at made
      exact .ofReach made context
  | moved reply after ready wet called context sources =>
      rw [called] at made
      exact ⟨made, by rw [context], vacuous⟩

theorem runStep_acts (step : Step) :
    Acts database step.mayCall session (session.runStep database world step).2 := by
  cases step with
  | runCommand text => exact runCommand_acts database world session text
  | execFile file => exact executeFile_acts database world session file
  | execScript sql => exact executeSql_acts database session _ sql
  | shellFile file => exact runShellFile_acts database world session file
  | shell program arguments => exact runProgram_acts database world session program arguments none
  | loadCsv file schema table => exact loadCsv_acts database world session file schema table
  | begin => exact (begin_switch database session).acts database session rfl
  | commit => exact (commit_switch database session).acts database session rfl
  | rollback => exact (rollback_switch database session).acts database session rfl
  | enterFile file => exact ⟨.refl _, rfl, fun _ => rfl⟩
  | leaveFile file => exact ⟨.refl _, rfl, fun _ => rfl⟩
  | list kind schemas =>
      exact list_acts database world session (fun _ => Or.inl rfl)
        fun _ _ schema _ => Or.inr ⟨schema, _, rfl⟩

theorem runSteps_acts (surroundings : Surroundings) (index : Nat) (steps : List Step) :
    Acts database (fun call => ∃ step ∈ steps, step.mayCall call) session
      (session.runSteps database surroundings index steps).2 := by
  induction steps generalizing session index with
  | nil => exact .refl _
  | cons step rest ih =>
      have first : Acts database (fun call => ∃ later ∈ step :: rest, later.mayCall call) session
          (session.runStep database (surroundings index) step).2 :=
        (runStep_acts database _ session step).mono fun call made =>
          ⟨step, List.mem_cons_self, made⟩
      unfold runSteps
      split <;> rename_i stepped <;> rw [stepped] at first
      · exact first
      · refine first.trans ((ih _ _).mono ?_)
        rintro call ⟨later, member, made⟩
        exact ⟨later, List.mem_cons_of_mem _ member, made⟩

end Session

end Rollout
