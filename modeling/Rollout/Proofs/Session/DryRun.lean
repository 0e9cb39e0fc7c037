import Rollout.Proofs.Database.Calls
import Rollout.Proofs.Session.Effects
import Rollout.Proofs.Session.Stages

/-!
Dry runs. Nothing is asked for but what lists show: no other call reaches the database, and neither
the source trees nor anything else in the surroundings makes a difference, except that what lists
show is written out.
-/

namespace Rollout

/-- What a step asks the database for in a dry run. -/
def Step.queries : Step → List Database.Call
  | list kind schemas => kind.queries schemas
  | _ => []

/-- Calls that show what a database holds. -/
def Database.Call.isQuery : Database.Call → Bool
  | foreignKeys | schemaItems _ _ => true
  | _ => false

theorem ListKind.queries_isQuery {kind : ListKind} {schemas : List String} {call : Database.Call}
    (asked : call ∈ kind.queries schemas) : call.isQuery = true := by
  unfold queries at asked
  split at asked
  · cases asked
  · rw [List.mem_singleton.mp asked]
    rfl
  · obtain ⟨schema, -, rfl⟩ := List.mem_map.mp asked
    rfl

theorem Step.mem_queries {step : Step} {call : Database.Call} (asked : call ∈ step.queries) :
    ∃ kind schemas, step = .list kind schemas ∧ call ∈ kind.queries schemas := by
  cases step with
  | list kind schemas => exact ⟨kind, schemas, rfl, asked⟩
  | _ => cases asked

namespace Session

variable {State : Type}

section Calls

variable (database : Database State) (surroundings : Surroundings) {session : Session State}

/-- A dry run leads from the one session to the other, by calls that may be made. -/
structure Rehearses (may : Database.Call → Prop) (before after : Session State) : Prop where
  dry : after.context.dryRun = true
  reach : database.Reach may before.database after.database

variable {database} {may more : Database.Call → Prop} {first second third : Session State}

theorem Rehearses.ofActs (dry : first.context.dryRun = true)
    (acts : Acts database may first second) :
    Rehearses database may first second :=
  ⟨acts.dryRun.trans dry, acts.reach⟩

theorem Rehearses.refl (dry : session.context.dryRun = true) :
    Rehearses database may session session :=
  ⟨dry, .refl _⟩

theorem Rehearses.trans (start : Rehearses database may first second)
    (rest : Rehearses database may second third) : Rehearses database may first third :=
  ⟨rest.dry, start.reach.trans rest.reach⟩

theorem Rehearses.mono (wider : ∀ call, may call → more call)
    (rehearses : Rehearses database may first second) : Rehearses database more first second :=
  ⟨rehearses.dry, rehearses.reach.mono wider⟩

theorem Switch.rehearses {call : Database.Call} {wanted : Bool} {result : Result State Unit}
    (dry : session.context.dryRun = true)
    (unasked : result.2.database = session.database)
    (switch : Switch database session call wanted result) :
    Rehearses database may session result.2 := by
  refine ⟨?_, by rw [unasked]; exact .refl _⟩
  cases switch with
  | refused => exact dry
  | logged _ _ _ _ context => rw [context]; exact dry
  | failed _ _ _ _ context => rw [context]; exact dry
  | moved _ _ _ _ _ context => rw [context]; exact dry

theorem begin_rehearses (dry : session.context.dryRun = true) :
    Rehearses database may session (session.begin database).2 := by
  refine (begin_switch database session).rehearses dry ?_
  unfold Session.begin
  rw [if_pos dry]
  split <;> rfl

theorem commit_rehearses (dry : session.context.dryRun = true) :
    Rehearses database may session (session.commit database).2 := by
  refine (commit_switch database session).rehearses dry ?_
  unfold Session.commit
  rw [if_pos dry]
  split <;> rfl

theorem rollback_rehearses (dry : session.context.dryRun = true) :
    Rehearses database may session (session.rollback database).2 := by
  refine (rollback_switch database session).rehearses dry ?_
  unfold Session.rollback
  rw [if_pos dry]
  split <;> rfl

theorem abort_rehearses (dry : session.context.dryRun = true) :
    Rehearses database may session (session.abort database) := by
  have rolled : Rehearses database may session (session.rollback database).2 :=
    rollback_rehearses dry
  unfold abort
  split
  · split <;> rename_i ended <;> rw [ended] at rolled
    · exact rolled
    · exact ⟨rolled.dry, rolled.reach⟩
  · exact .refl dry

/-- Lists ask for what they show, and all other steps are only logged. -/
theorem runStep_rehearses (world : World) (step : Step) (dry : session.context.dryRun = true) :
    Rehearses database (· ∈ step.queries) session (session.runStep database world step).2 := by
  have logged {entry : LogEntry} : Rehearses database (· ∈ step.queries) session
      (session.logged entry) := ⟨dry, .refl _⟩
  cases step with
  | runCommand text =>
      dsimp only [runStep, runCommand]
      rw [if_pos (show (session.info _).context.dryRun = true from dry)]
      exact logged
  | execFile file => rw [runStep, executeFile, if_pos dry]; exact logged
  | execScript sql => rw [runStep, executeSql, if_pos dry]; exact logged
  | shellFile file => rw [runStep, runShellFile, if_pos dry]; exact logged
  | shell program arguments =>
      dsimp only [runStep, runProgram]
      rw [if_pos dry]
      exact logged
  | loadCsv file schema table => rw [runStep, loadCsv, if_pos dry]; exact logged
  | begin => exact begin_rehearses dry
  | commit => exact commit_rehearses dry
  | rollback => exact rollback_rehearses dry
  | enterFile file => exact ⟨dry, .refl _⟩
  | leaveFile file => exact ⟨dry, .refl _⟩
  | list kind schemas =>
      refine .ofActs dry (list_acts database world session ?_ ?_)
      · rintro rfl
        exact List.mem_singleton_self _
      · intro noSchemas noForeignKeys schema member
        rw [Step.queries, ListKind.queries_items noSchemas noForeignKeys]
        exact List.mem_map.mpr ⟨schema, member, rfl⟩

theorem runSteps_rehearses (index : Nat) (steps : List Step)
    (dry : session.context.dryRun = true) :
    Rehearses database (fun call => ∃ step ∈ steps, call ∈ step.queries) session
      (session.runSteps database surroundings index steps).2 := by
  induction steps generalizing session index with
  | nil => exact .refl dry
  | cons step rest ih =>
      have next : Rehearses database (fun call => ∃ later ∈ step :: rest, call ∈ later.queries)
          session (session.runStep database (surroundings index) step).2 :=
        (runStep_rehearses (surroundings index) step dry).mono fun call asked =>
          ⟨step, List.mem_cons_self, asked⟩
      rw [runSteps]
      split <;> rename_i ran <;> rw [ran] at next
      · exact next
      · refine next.trans ((ih (index + 1) next.dry).mono ?_)
        rintro call ⟨later, member, asked⟩
        exact ⟨later, List.mem_cons_of_mem _ member, asked⟩

theorem started_rehearses (dry : session.context.dryRun = true) :
    Rehearses database may session (session.started database).2 := by
  have taken : Rehearses database may session session.taken := ⟨dry, .refl _⟩
  rw [started_taken]
  split
  · exact taken.trans (begin_rehearses taken.dry)
  · exact taken

theorem closed_rehearses (wrapped : Bool) (ran : Result State Unit)
    (dry : ran.2.context.dryRun = true) :
    Rehearses database may ran.2 (closed database wrapped ran).2 := by
  unfold closed
  split
  · rcases ran with ⟨_ | _, worked⟩
    · exact abort_rehearses dry
    · have committed : Rehearses database may worked (worked.commit database).2 :=
        commit_rehearses dry
      dsimp only
      rcases ended : worked.commit database with ⟨_ | _, stopped⟩ <;> rw [ended] at committed
      · exact committed.trans (abort_rehearses committed.dry)
      · exact committed
  · exact .refl dry

theorem runQueue_rehearses (dry : session.context.dryRun = true) :
    Rehearses database (fun call => ∃ step ∈ session.context.queue.steps, call ∈ step.queries)
      session (session.runQueue database surroundings).2 := by
  have ready : Rehearses database
      (fun call => ∃ step ∈ session.context.queue.steps, call ∈ step.queries) session
      (session.started database).2 := started_rehearses dry
  rw [runQueue_stages]
  rcases started : session.started database with ⟨_ | _, start⟩ <;> rw [started] at ready
  · exact ready
  · have ran : Rehearses database _ start _ :=
      runSteps_rehearses surroundings 0 session.context.queue.steps ready.dry
    exact (ready.trans ran).trans (closed_rehearses _ _ ran.dry)

theorem execute_dry (dry : session.context.dryRun = true) :
    session.execute database surroundings =
      let ran := session.runQueue database surroundings
      (ran.1.mapError .run, ran.2) := by
  unfold execute
  rw [if_neg (by simp [dry])]

end Calls

section Elsewhere

/-- The session with other source trees. -/
def withSources (sources : Sources) (session : Session State) : Session State :=
  { session with sources }

/-- The same result, in a session with other source trees. -/
def elsewhere {Answer : Type} (sources : Sources) (result : Answer × Session State) :
    Answer × Session State :=
  (result.1, result.2.withSources sources)

variable (database : Database State) (sources : Sources) {session : Session State}

theorem listItems_elsewhere (kind : Option ItemKind) (schemas : List String) :
    (session.withSources sources).listItems database kind schemas =
      elsewhere sources (session.listItems database kind schemas) := by
  induction schemas generalizing session with
  | nil => rfl
  | cons schema rest ih =>
      have asked : (session.withSources sources).call database (.schemaItems schema kind) =
          elsewhere sources (session.call database (.schemaItems schema kind)) := rfl
      rw [listItems, listItems, asked]
      rcases session.call database (.schemaItems schema kind) with ⟨_ | items, after⟩
      · rfl
      · dsimp only [elsewhere]
        rw [ih]
        rfl

theorem listTable_elsewhere (kind : ListKind) (schemas : List String) :
    (session.withSources sources).listTable database kind schemas =
      elsewhere sources (session.listTable database kind schemas) := by
  unfold listTable
  split
  · rfl
  · have asked : (session.withSources sources).call database .foreignKeys =
        elsewhere sources (session.call database .foreignKeys) := rfl
    rw [asked]
    rcases session.call database .foreignKeys with ⟨_ | keys, after⟩ <;> rfl
  · rw [listItems_elsewhere]
    rfl

theorem list_elsewhere {world other : World} (same : other.sinkFault = world.sinkFault)
    (kind : ListKind) (schemas : List String) :
    (session.withSources sources).list database other kind schemas =
      elsewhere sources (session.list database world kind schemas) := by
  unfold list
  rw [listTable_elsewhere]
  rcases session.listTable database kind schemas with ⟨_ | table, after⟩
  · rfl
  · dsimp only [elsewhere]
    have shown : (after.withSources sources).context = after.context := rfl
    rw [shown]
    cases table.written after.context.format with
    | error ragged => rfl
    | ok text =>
        unfold write
        dsimp only
        rw [same]
        cases world.sinkFault <;> rfl

theorem begin_elsewhere (dry : session.context.dryRun = true) :
    (session.withSources sources).begin database = elsewhere sources (session.begin database) := by
  have context : (session.withSources sources).context = session.context := rfl
  unfold Session.begin
  rw [context, if_pos dry, if_pos dry]
  cases session.context.inTransaction <;> rfl

theorem commit_elsewhere (dry : session.context.dryRun = true) :
    (session.withSources sources).commit database =
      elsewhere sources (session.commit database) := by
  have context : (session.withSources sources).context = session.context := rfl
  unfold Session.commit
  rw [context, if_pos dry, if_pos dry]
  cases session.context.inTransaction <;> rfl

theorem rollback_elsewhere (dry : session.context.dryRun = true) :
    (session.withSources sources).rollback database =
      elsewhere sources (session.rollback database) := by
  have context : (session.withSources sources).context = session.context := rfl
  unfold Session.rollback
  rw [context, if_pos dry, if_pos dry]
  cases session.context.inTransaction <;> rfl

theorem abort_elsewhere (dry : session.context.dryRun = true) :
    (session.withSources sources).abort database =
      (session.abort database).withSources sources := by
  have context : (session.withSources sources).context = session.context := rfl
  unfold abort
  rw [rollback_elsewhere database sources dry, context]
  split
  · rcases session.rollback database with ⟨_ | _, after⟩ <;> rfl
  · rfl

theorem closed_elsewhere (wrapped : Bool) {ran : Result State Unit}
    (dry : ran.2.context.dryRun = true) :
    closed database wrapped (elsewhere sources ran) =
      elsewhere sources (closed database wrapped ran) := by
  rcases ran with ⟨_ | _, worked⟩ <;> cases wrapped
  · rfl
  · exact congrArg _ (abort_elsewhere database sources dry)
  · rfl
  · have dried := (commit_rehearses dry : Rehearses database (fun _ => False) _ _).dry
    unfold closed elsewhere
    dsimp only
    rw [commit_elsewhere database sources dry]
    rcases ended : worked.commit database with ⟨_ | _, stopped⟩ <;> rw [ended] at dried
    · exact congrArg _ (abort_elsewhere database sources dried)
    · rfl

/-- In a dry run, a step has use of its surroundings only to write out what a list shows. -/
theorem runStep_elsewhere {world other : World} (same : other.sinkFault = world.sinkFault)
    (step : Step) (dry : session.context.dryRun = true) :
    (session.withSources sources).runStep database other step =
      elsewhere sources (session.runStep database world step) := by
  have away : (session.withSources sources).context.dryRun = true := dry
  cases step with
  | runCommand text =>
      dsimp only [runStep, runCommand]
      rw [if_pos (show (session.info _).context.dryRun = true from dry),
        if_pos (show ((session.withSources sources).info _).context.dryRun = true from dry)]
      rfl
  | execFile file => rw [runStep, runStep, executeFile, executeFile, if_pos dry, if_pos away]; rfl
  | execScript sql => rw [runStep, runStep, executeSql, executeSql, if_pos dry, if_pos away]; rfl
  | shellFile file =>
      rw [runStep, runStep, runShellFile, runShellFile, if_pos dry, if_pos away]
      rfl
  | shell program arguments =>
      dsimp only [runStep, runProgram]
      rw [if_pos dry, if_pos away]
      rfl
  | loadCsv file schema table =>
      rw [runStep, runStep, loadCsv, loadCsv, if_pos dry, if_pos away]
      rfl
  | begin => exact begin_elsewhere database sources dry
  | commit => exact commit_elsewhere database sources dry
  | rollback => exact rollback_elsewhere database sources dry
  | enterFile file => rfl
  | leaveFile file => rfl
  | list kind schemas => exact list_elsewhere database sources same kind schemas

variable {surroundings others : Surroundings}
  (same : ∀ number, (others number).sinkFault = (surroundings number).sinkFault)

include same

theorem runSteps_elsewhere (index : Nat) (steps : List Step)
    (dry : session.context.dryRun = true) :
    (session.withSources sources).runSteps database others index steps =
      elsewhere sources (session.runSteps database surroundings index steps) := by
  induction steps generalizing session index with
  | nil => rfl
  | cons step rest ih =>
      have next := (runStep_rehearses (surroundings index) step dry : Rehearses database _ _ _).dry
      rw [runSteps, runSteps, runStep_elsewhere database sources (same index) step dry]
      rcases ran : session.runStep database (surroundings index) step with ⟨_ | _, after⟩ <;>
        rw [ran] at next
      · rfl
      · exact ih (index + 1) next

theorem runQueue_elsewhere (dry : session.context.dryRun = true) :
    (session.withSources sources).runQueue database others =
      elsewhere sources (session.runQueue database surroundings) := by
  have ready := (started_rehearses dry : Rehearses database (fun _ => False) _ _).dry
  have started : (session.withSources sources).started database =
      elsewhere sources (session.started database) := by
    have away : (session.withSources sources).started database =
        if session.context.isWrapped then (session.taken.withSources sources).begin database
        else (.ok (), session.taken.withSources sources) := rfl
    rw [away, started_taken]
    cases session.context.isWrapped
    · rfl
    · exact begin_elsewhere database sources dry
  rw [runQueue_stages, runQueue_stages, started]
  rcases begun : session.started database with ⟨_ | _, start⟩ <;> rw [begun] at ready
  · rfl
  · have ran := (runSteps_rehearses surroundings 0 session.context.queue.steps ready :
      Rehearses database _ _ _).dry
    have ended := closed_elsewhere database sources session.context.isWrapped ran
    dsimp only [elsewhere, batch]
    rw [show (session.withSources sources).context = session.context from rfl,
      runSteps_elsewhere database sources same 0 _ ready, ended]
    rfl

end Elsewhere

/-- A dry run asks the database only for what the lists that wait show; what is seen of the database
and stays as it is when something is shown, stays as it is. Nothing waits afterwards, whatever is
answered, and no source tree was opened. With other source trees, programs and files, and at another
time, the run goes the same way, as long as what is shown can be written out or not as before. -/
theorem execute_touches_nothing (database : Database State) (surroundings : Surroundings)
    (session : Session (State × List Database.Call)) (dry : session.context.dryRun = true) :
    let ran := session.execute database.recorded surroundings
    (∃ made, ran.2.database.2 = session.database.2 ++ made ∧ ∀ call ∈ made,
        ∃ kind schemas, .list kind schemas ∈ session.context.queue.steps ∧
          call ∈ kind.queries schemas ∧ call.isQuery = true) ∧
      (∀ (Seen : Type) (seen : State → Seen), (∀ call state, call.isQuery = true →
          seen (database.perform call state).2 = seen state) →
        seen ran.2.database.1 = seen session.database.1) ∧
      ran.2.context.queue = {} ∧ ran.2.sources = session.sources ∧
      ∀ sources others, (∀ number, (others number).sinkFault = (surroundings number).sinkFault) →
        (session.withSources sources).execute database.recorded others =
          elsewhere sources ran := by
  have rehearses : Rehearses database.recorded _ session
      (session.runQueue database.recorded surroundings).2 := runQueue_rehearses surroundings dry
  have listed : ∀ call, (∃ step ∈ session.context.queue.steps, call ∈ step.queries) →
      ∃ kind schemas, .list kind schemas ∈ session.context.queue.steps ∧
        call ∈ kind.queries schemas ∧ call.isQuery = true := by
    rintro call ⟨step, member, asked⟩
    obtain ⟨kind, schemas, rfl, among⟩ := Step.mem_queries asked
    exact ⟨kind, schemas, member, among, ListKind.queries_isQuery among⟩
  have away : ∀ sources others, (∀ number, (others number).sinkFault =
      (surroundings number).sinkFault) → (session.withSources sources).execute database.recorded
        others = elsewhere sources (session.execute database.recorded surroundings) := by
    intro sources others same
    rw [execute_dry others (show (session.withSources sources).context.dryRun = true from dry),
      runQueue_elsewhere database.recorded sources same dry, execute_dry surroundings dry]
    rfl
  have untouched : (session.execute database.recorded surroundings).2.sources = session.sources :=
    congrArg (·.2.sources) (away session.sources surroundings fun _ => rfl)
  dsimp only
  refine ⟨?_, ?_, ?_, untouched, away⟩ <;> rw [execute_dry surroundings dry]
  · obtain ⟨made, whole, all⟩ := rehearses.reach.recorded
    exact ⟨made, whole, fun call member => listed call (all call member)⟩
  · intro Seen seen shows
    -- what is seen at the start is seen after each of the calls
    let kept (state : State × List Database.Call) : Prop :=
      seen state.1 = seen session.database.1
    have start : kept session.database := rfl
    have keeps : ∀ call state, (∃ step ∈ session.context.queue.steps, call ∈ step.queries) →
        kept state → kept (database.recorded.perform call state).2 := by
      intro call state asked same
      obtain ⟨-, -, -, -, query⟩ := listed call asked
      exact (shows call state.1 query).trans same
    have held : kept (session.runQueue database.recorded surroundings).2.database :=
      rehearses.reach.keeps keeps start
    exact held
  · exact runQueue_queue _ _ _

/-- A dry run of a script and two lists, and of a commit that nothing was begun for. -/
def rehearsal : Session (Database.Journal × List Database.Call) where
  context :=
    { autoTransaction := false
      dryRun := true
      queue := Queue.append {}
        [.execFile ⟨"tables.sql", none⟩, .list .tables ["app"], .list .foreignKeys [], .commit] }
  sources := { drivers := [], base := { scheme := "file", path := ".", fragment := none } }
  database := ({ contents := [.exec "earlier"] }, [])

/-- What it comes to. -/
def rehearsed : Except SessionError Nat × Session (Database.Journal × List Database.Call) :=
  rehearsal.execute Database.Journal.database.recorded fun _ => {}

theorem execute_touches_nothing_refused :
    rehearsed.1 = .error (.run (.transaction .notOpen)) ∧
      rehearsed.2.database.2 = [.schemaItems "app" (some .table), .foreignKeys] ∧
      rehearsed.2.database.1.contents = [.exec "earlier"] ∧ rehearsed.2.context.queue = {} ∧
      (rehearsal.execute Database.Journal.database.recorded fun _ => { clock := "later" }).1 =
        .error (.run (.transaction .notOpen)) := by
  have refused : rehearsed.1 = .error (.run (.transaction .notOpen)) := by decide +kernel
  obtain ⟨-, seen, emptied, -, away⟩ :=
    execute_touches_nothing Database.Journal.database (fun _ => {}) rehearsal rfl
  have shows : ∀ call state, call.isQuery = true →
      (Database.Journal.database.perform call state).2.contents = state.contents := by
    intro call state query
    cases call with
    | foreignKeys | schemaItems =>
        simp only [Database.Journal.database, Database.Journal.perform]
        split <;> rfl
    | _ => cases query
  refine ⟨refused, by decide +kernel, seen _ Database.Journal.contents shows, emptied, ?_⟩
  have same := away rehearsal.sources (fun _ => { clock := "later" }) fun _ => rfl
  exact (congrArg Prod.fst same).trans refused

end Session

end Rollout
