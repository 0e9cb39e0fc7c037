import Rollout.Proofs.Database.Calls
import Rollout.Proofs.Session.Atomic
import Rollout.Proofs.Session.Run
import Rollout.Proofs.Session.StepCalls

/-!
The course of a run. Whichever calls, files or programs fail, the lock that was taken is given back,
the transaction that was opened is committed or rolled back, and nothing else is called than what
the steps call for.
-/

namespace Rollout.Session

variable {State : Type}

section Courses

variable (database : Database State) (surroundings : Surroundings)

/-- Steps in order up to the first that fails, with the calls that they make. -/
inductive Runs : Nat → List Step → Session State → List Database.Call → Result State Unit → Prop
    where
  | nothing (index : Nat) (session : Session State) : Runs index [] session [] (.ok (), session)
  | failed {index : Nat} {step : Step} (rest : List Step) {session after : Session State}
      {failure : RunError}
      (ran : session.runStep database (surroundings index) step = (.error failure, after)) :
      Runs index (step :: rest) session
        (step.calls database (surroundings index) (session.sources, session.database))
        (.error failure, after)
  | next {index : Nat} {step : Step} {rest : List Step} {session after : Session State}
      {made : List Database.Call} {result : Result State Unit}
      (ran : session.runStep database (surroundings index) step = (.ok (), after))
      (later : Runs (index + 1) rest after made result) :
      Runs index (step :: rest) session
        (step.calls database (surroundings index) (session.sources, session.database) ++ made)
        result

/-- The session in its transaction, which has led the database to the given state. -/
def begun (session : Session State) (state : State) : Session State :=
  { session with context := { session.context with inTransaction := true }, database := state }

/-- A batch in a transaction of its own: the calls that it makes, how it ends and what state it
leaves the database in. Rolling back may fail; nothing follows from that. -/
inductive Batch (steps : List Step) (session : Session State) :
    List Database.Call → Except RunError Unit → State → Prop where
  | notBegun {error : DatabaseError} {state : State}
      (refused : database.perform .begin session.database = (.error error, state)) :
      Batch steps session [.begin] (.error (.database error)) state
  | stepFailed {opened : State} {made : List Database.Call} {failure : RunError}
      {stopped : Session State}
      (opens : database.perform .begin session.database = (.ok (), opened))
      (ran : Runs database surroundings 0 steps (session.begun opened) made
        (.error failure, stopped))
      (data : ∀ call ∈ made, call.isData = true) :
      Batch steps session (.begin :: made ++ [.rollback]) (.error failure)
        (database.perform .rollback stopped.database).2
  | notCommitted {opened state : State} {made : List Database.Call} {error : DatabaseError}
      {ended : Session State}
      (opens : database.perform .begin session.database = (.ok (), opened))
      (ran : Runs database surroundings 0 steps (session.begun opened) made (.ok (), ended))
      (data : ∀ call ∈ made, call.isData = true)
      (refused : database.perform .commit ended.database = (.error error, state)) :
      Batch steps session (.begin :: made ++ [.commit, .rollback]) (.error (.database error))
        (database.perform .rollback state).2
  | committed {opened state : State} {made : List Database.Call} {ended : Session State}
      (opens : database.perform .begin session.database = (.ok (), opened))
      (ran : Runs database surroundings 0 steps (session.begun opened) made (.ok (), ended))
      (data : ∀ call ∈ made, call.isData = true)
      (commits : database.perform .commit ended.database = (.ok (), state)) :
      Batch steps session (.begin :: made ++ [.commit]) (.ok ()) state

/-- The session when it holds the lock, which has led the database to the given state, and has
taken the steps out of the queue. -/
def locked (session : Session State) (state : State) : Session State :=
  { session with context := { session.context.emptied with depth := 0 }, database := state }

/-- A run under the lock: the calls that it makes, what it answers and what state it leaves the
database in. That the lock cannot be given back is an answer only if nothing failed before. -/
inductive Course (session : Session State) :
    List Database.Call → Except SessionError Nat → State → Prop where
  | notLocked {error : DatabaseError} {state : State}
      (refused : database.perform .lock session.database = (.error error, state)) :
      Course session [.lock] (.error (.database error)) state
  | failed {held last : State} {made : List Database.Call} {failure : RunError}
      (locks : database.perform .lock session.database = (.ok (), held))
      (batch : Batch database surroundings session.context.queue.steps (session.locked held) made
        (.error failure) last) :
      Course session (.lock :: made ++ [.unlock]) (.error (.run failure))
        (database.perform .unlock last).2
  | notUnlocked {held last state : State} {made : List Database.Call} {error : DatabaseError}
      (locks : database.perform .lock session.database = (.ok (), held))
      (batch : Batch database surroundings session.context.queue.steps (session.locked held) made
        (.ok ()) last)
      (refused : database.perform .unlock last = (.error error, state)) :
      Course session (.lock :: made ++ [.unlock]) (.error (.database error)) state
  | done {held last state : State} {made : List Database.Call}
      (locks : database.perform .lock session.database = (.ok (), held))
      (batch : Batch database surroundings session.context.queue.steps (session.locked held) made
        (.ok ()) last)
      (unlocks : database.perform .unlock last = (.ok (), state)) :
      Course session (.lock :: made ++ [.unlock]) (.ok session.context.queue.length) state

end Courses

section Records

variable {database : Database State} {surroundings : Surroundings}

theorem Runs.isData {index : Nat} {steps : List Step} {session : Session State}
    {made : List Database.Call} {result : Result State Unit}
    (runs : Runs database surroundings index steps session made result)
    (ordinary : ∀ step ∈ steps, step.isTransaction = false) :
    ∀ call ∈ made, call.isData = true := by
  induction runs with
  | nothing => nofun
  | failed rest ran =>
      intro call
      exact Step.calls_isData (ordinary _ List.mem_cons_self) _
  | next ran later ih =>
      intro call member
      rcases List.mem_append.mp member with own | others
      · exact Step.calls_isData (ordinary _ List.mem_cons_self) _ own
      · exact ih (fun step member => ordinary step (List.mem_cons_of_mem _ member)) call others

theorem Runs.writes {index : Nat} {steps : List Step}
    {session : Session (State × List Database.Call)} {made : List Database.Call}
    {result : Result (State × List Database.Call) Unit}
    (runs : Runs database.recorded surroundings index steps session made result)
    (wet : session.context.dryRun = false)
    (ordinary : ∀ step ∈ steps, step.isTransaction = false) : Writes made session result.2 := by
  induction runs with
  | nothing index session => exact .nothing rfl
  | @failed index step rest session after failure ran =>
      have writes := runStep_writes database (surroundings index) session wet
        (ordinary step List.mem_cons_self)
      rw [ran] at writes
      exact writes
  | @next index step rest session after made result ran later ih =>
      have first := ordinary step List.mem_cons_self
      have writes := runStep_writes database (surroundings index) session wet first
      have acts := runStep_acts database.recorded (surroundings index) session step
      rw [ran] at writes acts
      exact writes.trans (ih (acts.dryRun.trans wet)
        fun later member => ordinary later (List.mem_cons_of_mem _ member))

theorem Batch.writes {steps : List Step} {session : Session (State × List Database.Call)}
    {made : List Database.Call} {outcome : Except RunError Unit}
    {last : State × List Database.Call}
    (batch : Batch database.recorded surroundings steps session made outcome last)
    (wet : session.context.dryRun = false)
    (ordinary : ∀ step ∈ steps, step.isTransaction = false) :
    last.2 = session.database.2 ++ made := by
  cases batch with
  | notBegun refused => exact Database.recorded_listed refused
  | @stepFailed opened made failure stopped opens ran data =>
      have writes : stopped.database.2 = opened.2 ++ made := ran.writes wet ordinary
      rw [Database.recorded_listed (Prod.eta _).symm, writes, Database.recorded_listed opens]
      simp
  | @notCommitted opened state made error ended opens ran data refused =>
      have writes : ended.database.2 = opened.2 ++ made := ran.writes wet ordinary
      rw [Database.recorded_listed (Prod.eta _).symm, Database.recorded_listed refused, writes,
        Database.recorded_listed opens]
      simp
  | @committed opened state made ended opens ran data commits =>
      have writes : ended.database.2 = opened.2 ++ made := ran.writes wet ordinary
      rw [Database.recorded_listed commits, writes, Database.recorded_listed opens]
      simp

/-- The calls of the course are those that a database which writes them down has on record. -/
theorem Course.writes {session : Session (State × List Database.Call)}
    {made : List Database.Call} {answer : Except SessionError Nat}
    {last : State × List Database.Call}
    (course : Course database.recorded surroundings session made answer last)
    (wet : session.context.dryRun = false)
    (ordinary : ∀ step ∈ session.context.queue.steps, step.isTransaction = false) :
    last.2 = session.database.2 ++ made := by
  cases course with
  | notLocked refused => exact Database.recorded_listed refused
  | failed locks batch =>
      rw [Database.recorded_listed (Prod.eta _).symm, batch.writes wet ordinary]
      simp [locked, Database.recorded_listed locks]
  | notUnlocked locks batch refused =>
      rw [Database.recorded_listed refused, batch.writes wet ordinary]
      simp [locked, Database.recorded_listed locks]
  | done locks batch unlocks =>
      rw [Database.recorded_listed unlocks, batch.writes wet ordinary]
      simp [locked, Database.recorded_listed locks]

end Records

variable (database : Database State) (surroundings : Surroundings) {session : Session State}

theorem begin_begun (wet : session.context.dryRun = false)
    (closed : session.context.inTransaction = false) :
    session.begin database =
      match database.perform .begin session.database with
      | (.error error, state) => (.error (.database error), { session with database := state })
      | (.ok (), state) => (.ok (), session.begun state) := by
  unfold Session.begin
  rw [if_neg (by simp [closed]), if_neg (by simp [wet])]
  rcases performed : database.perform .begin session.database with ⟨_ | _, state⟩ <;>
    rw [call_performed performed]
  rfl

theorem commit_begun (wet : session.context.dryRun = false)
    (noted : session.context.inTransaction = true) :
    session.commit database =
      match database.perform .commit session.database with
      | (.error error, state) => (.error (.database error), { session with database := state })
      | (.ok (), state) => (.ok (), setTransaction { session with database := state } false) := by
  unfold Session.commit
  rw [if_neg (by simp [noted]), if_neg (by simp [wet])]
  rcases performed : database.perform .commit session.database with ⟨_ | _, state⟩ <;>
    rw [call_performed performed]

/-- Whether rolling back succeeds or not, it is called for, and no transaction counts as open. -/
theorem abort_closes (wet : session.context.dryRun = false)
    (noted : session.context.inTransaction = true) :
    (session.abort database).database = (database.perform .rollback session.database).2 ∧
      (session.abort database).context.inTransaction = false := by
  have switch := rollback_switch database session
  unfold abort
  rw [if_pos noted]
  split <;> rename_i ended <;> rw [ended] at switch
  · cases switch with
    | logged after ready dry => rw [wet] at dry; cases dry
    | moved reply after ready wet called context => rw [called, context]; exact ⟨rfl, rfl⟩
  · cases switch with
    | refused error other => exact absurd noted other
    | failed error after ready called context => rw [called]; exact ⟨rfl, rfl⟩

variable {steps : List Step} (ordinary : ∀ step ∈ steps, step.isTransaction = false)

theorem runSteps_runs (index : Nat) (steps : List Step) (session : Session State) :
    ∃ made, Runs database surroundings index steps session made
      (session.runSteps database surroundings index steps) := by
  induction steps generalizing index session with
  | nil => exact ⟨[], .nothing index session⟩
  | cons step rest ih =>
      unfold runSteps
      split <;> rename_i ran
      · exact ⟨_, .failed rest ran⟩
      · obtain ⟨made, later⟩ := ih (index + 1) _
        exact ⟨_, .next ran later⟩

include ordinary

theorem runSteps_keeps (index : Nat) (session : Session State) :
    (session.runSteps database surroundings index steps).2.context.dryRun =
        session.context.dryRun ∧
      (session.runSteps database surroundings index steps).2.context.inTransaction =
        session.context.inTransaction := by
  have acts := runSteps_acts database session surroundings index steps
  refine ⟨acts.dryRun, acts.steady ?_⟩
  rintro call ⟨step, member, made⟩
  exact Step.mayCall_isData (ordinary step member) made

/-- However it ends, what is run is such a batch, and no transaction counts as open after it. -/
theorem runWrapped_batch (wet : session.context.dryRun = false)
    (closed : session.context.inTransaction = false) :
    (∃ made, Batch database surroundings steps session made
        (session.runWrapped database surroundings steps).1
        (session.runWrapped database surroundings steps).2.database) ∧
      (session.runWrapped database surroundings steps).2.context.inTransaction = false := by
  unfold runWrapped
  rw [begin_begun database wet closed]
  rcases opens : database.perform .begin session.database with ⟨error | _, opened⟩
  · exact ⟨⟨_, .notBegun opens⟩, closed⟩
  · obtain ⟨made, ran⟩ := runSteps_runs database surroundings 0 steps (session.begun opened)
    have data := ran.isData ordinary
    obtain ⟨dry, noted⟩ :=
      runSteps_keeps database surroundings ordinary 0 (session.begun opened)
    dsimp only
    rcases worked : (session.begun opened).runSteps database surroundings 0 steps
      with ⟨failure | _, ended⟩ <;> rw [worked] at ran dry noted <;> dsimp only
    · obtain ⟨state, closes⟩ := abort_closes database (dry.trans wet) noted
      exact ⟨⟨_, by rw [state]; exact .stepFailed opens ran data⟩, closes⟩
    · rw [commit_begun database (dry.trans wet) noted]
      rcases commits : database.perform .commit ended.database with ⟨error | _, state⟩
      · -- a commit that failed leaves the transaction open, so it is rolled back after all
        obtain ⟨last, closes⟩ := abort_closes database
          (show ({ ended with database := state } : Session State).context.dryRun = false from
            dry.trans wet) noted
        exact ⟨⟨_, by rw [last]; exact .notCommitted opens ran data commits⟩, closes⟩
      · exact ⟨⟨_, .committed opens ran data commits⟩, rfl⟩

omit ordinary

/-- What is answered when the lock is given back: the first failure, if there is one. -/
theorem release_answer (ran : Result State Nat) :
    (release database ran).1 =
      match ran.1, (database.perform .unlock ran.2.database).1 with
      | .ok count, .ok () => .ok count
      | .ok _, .error error => .error (.database error)
      | .error failure, _ => .error (.run failure) := by
  obtain ⟨result, session⟩ := ran
  unfold release
  dsimp only
  split <;> rename_i called <;> obtain ⟨answered, -, -⟩ := call_parts called <;>
    rw [answered] <;> cases result <;> rfl

/-- However it ends, what is run is such a course. -/
theorem execute_course (automatic : session.context.autoTransaction = true)
    (wet : session.context.dryRun = false) (closed : session.context.inTransaction = false)
    (effectful : session.context.queue.effectful = true)
    (ordinary : ∀ step ∈ session.context.queue.steps, step.isTransaction = false) :
    (∃ made, Course database surroundings session made
        (session.execute database surroundings).1
        (session.execute database surroundings).2.database) ∧
      (session.execute database surroundings).2.context.inTransaction = false := by
  have mode : (session.context.queue.effectful && !session.context.dryRun) = true := by
    rw [effectful, wet]
    rfl
  unfold execute
  rw [if_pos mode]
  rcases locks : database.perform .lock session.database with ⟨error | _, held⟩ <;>
    rw [call_performed locks]
  · exact ⟨⟨_, .notLocked locks⟩, closed⟩
  · obtain ⟨⟨made, batch⟩, closes⟩ := runWrapped_batch database surroundings ordinary
      (show (session.locked held).context.dryRun = false from wet) closed
    have queue : runQueue database surroundings { session with database := held } =
        let ran := runWrapped database surroundings session.context.queue.steps
          (session.locked held)
        (ran.1.map fun () => session.context.queue.length, ran.2) :=
      runQueue_wrapped surroundings { session with database := held } automatic effectful
    dsimp only
    -- from here on only how the batch ended and whether the lock is given back count
    rw [queue, release_answer, release_database, release_context]
    refine ⟨?_, closes⟩
    dsimp only
    rcases ran : runWrapped database surroundings session.context.queue.steps
      (session.locked held) with ⟨failure | _, last⟩ <;> rw [ran] at batch
    · exact ⟨_, .failed locks batch⟩
    · rcases unlocks : database.perform .unlock last.database with ⟨error | _, state⟩
      · dsimp only [Except.map]
        exact ⟨_, .notUnlocked locks batch unlocks⟩
      · dsimp only [Except.map]
        exact ⟨_, .done locks batch unlocks⟩

/-- A run of steps with effects that open or close no transaction themselves, whatever fails: it
calls for the lock, for a transaction, for what the steps call for up to the first that fails, and
for the end of the transaction and of the lock. It answers with the first failure, nothing waits
after it and no transaction counts as open. -/
theorem execute_call_discipline (session : Session (State × List Database.Call))
    (automatic : session.context.autoTransaction = true)
    (wet : session.context.dryRun = false) (closed : session.context.inTransaction = false)
    (faithful : session.context.queue.Faithful)
    (effectful : ∃ step ∈ session.context.queue.steps, step.isList = false)
    (ordinary : ∀ step ∈ session.context.queue.steps, step.isTransaction = false) :
    ∃ made,
      Course database.recorded surroundings session made
          (session.execute database.recorded surroundings).1
          (session.execute database.recorded surroundings).2.database ∧
        (session.execute database.recorded surroundings).2.database.2 =
          session.database.2 ++ made ∧
        (session.execute database.recorded surroundings).2.context.queue = {} ∧
        (session.execute database.recorded surroundings).2.context.inTransaction = false := by
  obtain ⟨step, member, effects⟩ := effectful
  obtain ⟨⟨made, course⟩, closes⟩ := execute_course database.recorded surroundings automatic wet
    closed (faithful.effectful_of_mem member effects) ordinary
  exact ⟨made, course, course.writes wet ordinary, execute_queue _ _ _, closes⟩

/-- The batch with the script that is refused, when a lock is taken for it and all calls are
written down. -/
def refusedRun : Session (Database.Journal × List Database.Call) :=
  { refusedBatch with
    database := ({ failures := [false, false, false, false, false, true] }, []) }

/-- What is called for when its second script is refused. -/
def refusedCalls : List Database.Call :=
  [.lock, .begin, .currentUser, .recordAudit ⟨"create", "", none, none⟩, .exec "first",
    .exec "second", .rollback, .unlock]

theorem execute_call_discipline_refused :
    (refusedRun.execute Database.Journal.database.recorded fun _ => {}).1 =
        .error (.run (.sql "sql script" (.driver "refused"))) ∧
      Course Database.Journal.database.recorded (fun _ => {}) refusedRun refusedCalls
        (refusedRun.execute Database.Journal.database.recorded fun _ => {}).1
        (refusedRun.execute Database.Journal.database.recorded fun _ => {}).2.database := by
  obtain ⟨made, course, record, -⟩ := execute_call_discipline Database.Journal.database
    (fun _ => {}) refusedRun rfl rfl rfl rfl ⟨_, List.mem_cons_self, rfl⟩ (by decide)
  have calls : (refusedRun.execute Database.Journal.database.recorded fun _ => {}).2.database.2 =
      refusedCalls := by decide +kernel
  have same : made = refusedCalls := (record.symm.trans calls : [] ++ made = refusedCalls)
  refine ⟨by decide +kernel, ?_⟩
  rw [← same]
  exact course

end Rollout.Session
