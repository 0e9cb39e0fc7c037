import Rollout.Proofs.Session.Nesting

/-!
The stages of a run. It takes the lock if it needs it, takes the steps out of the queue and opens a
transaction if the batch is to have one; it does the steps in order up to the first that fails, and
then closes again what it has opened.
-/

namespace Rollout

/-- Does a run of what waits have a transaction of its own? -/
def Context.isWrapped (context : Context) : Bool :=
  context.autoTransaction && context.queue.effectful

namespace Session

variable {State : Type}

/-- Does a run of what waits take the lock? -/
def needsLock (session : Session State) : Bool :=
  session.context.queue.effectful && !session.context.dryRun

/-- The session when it has taken the steps out of the queue. -/
def taken (session : Session State) : Session State :=
  session.withContext { session.context.emptied with depth := 0 }

section Stages

variable (database : Database State) (surroundings : Surroundings)

/-- Takes the lock if the run needs it. -/
def secured (session : Session State) : Except DatabaseError Unit × Session State :=
  if session.needsLock then session.call database .lock else (.ok (), session)

/-- The first step is run in the second session. -/
def Enters (session start : Session State) : Prop :=
  ∃ held, session.secured database = (.ok (), held) ∧ held.started database = (.ok (), start)

/-- A run comes to the step of that number, counted from 0, in the second session. -/
def Stage (session : Session State) (number : Nat) (stage : Session State) : Prop :=
  ∃ start, session.Enters database start ∧
    start.runSteps database surroundings 0 (session.context.queue.steps.take number) =
      (.ok (), stage)

/-- A run comes to the step of that number, which fails. -/
def FailsAt (session : Session State) (number : Nat) (failure : RunError) : Prop :=
  ∃ stage step after, session.Stage database surroundings number stage ∧
    session.context.queue.steps[number]? = some step ∧
    stage.runStep database (surroundings number) step = (.error failure, after)

/-- Ends a batch. A transaction of its own is committed, or rolled back if anything has failed. -/
def closed (wrapped : Bool) (ran : Result State Unit) : Result State Unit :=
  if wrapped then
    match ran with
    | (.error error, stopped) => (.error error, stopped.abort database)
    | (.ok (), worked) =>
        match worked.commit database with
        | (.error error, stopped) => (.error error, stopped.abort database)
        | (.ok (), after) => (.ok (), after)
  else ran

/-- What is answered for a run, after the lock was given back if it was taken. -/
def answered (locked : Bool) (ran : Result State Nat) : Except SessionError Nat × Session State :=
  if locked then release database ran else (ran.1.mapError .run, ran.2)

/-- The steps of a batch from its start, and its end. -/
def batch (context : Context) (start : Session State) : Result State Nat :=
  let ran := closed database context.isWrapped
    (start.runSteps database surroundings 0 context.queue.steps)
  (ran.1.map fun () => context.queue.length, ran.2)

/-- All ways in which running what waits can go. -/
inductive Executed (session : Session State) : Except SessionError Nat × Session State → Prop where
  | notSecured {error : DatabaseError} {held : Session State}
      (refused : session.secured database = (.error error, held)) :
      Executed session (.error (.database error), held.withContext held.context.emptied)
  | notStarted {held after : Session State} {failure : RunError}
      (secured : session.secured database = (.ok (), held))
      (refused : held.started database = (.error failure, after)) :
      Executed session (answered database session.needsLock (.error failure, after))
  | entered {start : Session State} (enters : session.Enters database start) :
      Executed session
        (answered database session.needsLock (batch database surroundings session.context start))

end Stages

variable {database : Database State} {surroundings : Surroundings} {session after : Session State}

theorem secured_context {result : Except DatabaseError Unit}
    (secured : session.secured database = (result, after)) : after.context = session.context := by
  unfold Session.secured at secured
  split at secured
  · exact (call_parts secured).2.2
  · obtain ⟨-, rfl⟩ := Prod.mk.inj secured
    rfl

theorem runWrapped_stages (steps : List Step) (session : Session State) :
    session.runWrapped database surroundings steps =
      match session.begin database with
      | (.error error, after) => (.error error, after)
      | (.ok (), start) => closed database true (start.runSteps database surroundings 0 steps) := by
  unfold runWrapped closed
  rcases session.begin database with ⟨_ | _, start⟩
  · rfl
  · exact (if_pos rfl).symm

theorem started_taken (database : Database State) (session : Session State) :
    session.started database =
      if session.context.isWrapped then session.taken.begin database else (.ok (), session.taken) :=
  rfl

theorem runQueue_stages (session : Session State) :
    session.runQueue database surroundings =
      match session.started database with
      | (.error error, after) => (.error error, after)
      | (.ok (), start) => batch database surroundings session.context start := by
  have ran : session.runQueue database surroundings =
      let ran := if session.context.isWrapped then
          session.taken.runWrapped database surroundings session.context.queue.steps
        else session.taken.runSteps database surroundings 0 session.context.queue.steps
      (ran.1.map fun () => session.context.queue.length, ran.2) := rfl
  rw [started_taken, ran]
  unfold batch
  cases session.context.isWrapped
  · rfl
  · dsimp only
    rw [if_pos rfl, if_pos rfl, runWrapped_stages]
    rcases session.taken.begin database with ⟨_ | _, start⟩ <;> rfl

theorem execute_stages (session : Session State) :
    session.execute database surroundings =
      match session.secured database with
      | (.error error, held) => (.error (.database error), held.withContext held.context.emptied)
      | (.ok (), held) =>
          answered database session.needsLock (held.runQueue database surroundings) := by
  unfold execute secured answered
  rw [← needsLock]
  split <;> rfl

theorem execute_executed (database : Database State) (surroundings : Surroundings)
    (session : Session State) :
    Executed database surroundings session (session.execute database surroundings) := by
  rw [execute_stages]
  rcases secured : session.secured database with ⟨_ | _, held⟩
  · exact .notSecured secured
  · have same := secured_context secured
    dsimp only
    rw [runQueue_stages, same]
    rcases ready : held.started database with ⟨_ | _, start⟩
    · exact .notStarted secured ready
    · exact .entered ⟨held, secured, ready⟩

section Answers

variable (locked : Bool) (ran : Result State Nat)

theorem answered_context : (answered database locked ran).2.context = ran.2.context := by
  unfold answered
  split
  · exact release_context database ran
  · rfl

theorem answered_database :
    (answered database locked ran).2.database =
      if locked then (database.perform .unlock ran.2.database).2 else ran.2.database := by
  unfold answered
  split
  · exact release_database database ran
  · rfl

end Answers

/-- What was run is answered with its failure. -/
theorem answered_error (locked : Bool) (failure : RunError) (after : Session State) :
    (answered database locked (.error failure, after)).1 = .error (.run failure) := by
  unfold answered
  split
  · unfold release
    dsimp only
    split <;> rfl
  · rfl

/-- A run that came to its end is answered so, unless the lock could not be given back. -/
theorem answered_ok (database : Database State) (locked : Bool) (count : Nat)
    (after : Session State) :
    (answered database locked (.ok count, after)).1 = .ok count ∨
      ∃ error, (answered database locked (.ok count, after)).1 = .error (.database error) ∧
        database.Fails (· = .unlock) after.database error := by
  unfold answered
  split
  · unfold release
    dsimp only
    split <;> rename_i called
    · exact .inl rfl
    · exact .inr ⟨_, rfl, .single rfl (call_parts called).1⟩
  · exact .inl rfl

theorem runSteps_append (index : Nat) (first rest : List Step) (session : Session State) :
    session.runSteps database surroundings index (first ++ rest) =
      match session.runSteps database surroundings index first with
      | (.error error, after) => (.error error, after)
      | (.ok (), after) => after.runSteps database surroundings (index + first.length) rest := by
  induction first generalizing index session with
  | nil => rfl
  | cons step later ih =>
      rw [List.cons_append, runSteps, runSteps]
      split
      · rfl
      · rw [ih, List.length_cons, Nat.add_right_comm, ← Nat.add_assoc]

/-- Steps fail if one of them does after those before it were run. -/
theorem runSteps_error_iff {index : Nat} {steps : List Step} {failure : RunError} :
    session.runSteps database surroundings index steps = (.error failure, after) ↔
      ∃ number step stage, steps[number]? = some step ∧
        session.runSteps database surroundings index (steps.take number) = (.ok (), stage) ∧
        stage.runStep database (surroundings (index + number)) step = (.error failure, after) := by
  constructor
  · intro failed
    induction steps generalizing index session with
    | nil => cases failed
    | cons step rest ih =>
        rw [runSteps] at failed
        split at failed <;> rename_i ran
        · exact ⟨0, step, session, rfl, rfl, ran.trans failed⟩
        · obtain ⟨number, other, stage, within, before, fails⟩ := ih failed
          refine ⟨number + 1, other, stage, within, ?_, ?_⟩
          · rw [List.take_succ_cons, runSteps, ran]
            exact before
          · rwa [Nat.add_right_comm] at fails
  · rintro ⟨number, step, stage, within, before, fails⟩
    obtain ⟨short, rfl⟩ := List.getElem?_eq_some_iff.mp within
    have cut : steps = steps.take number ++ steps[number] :: steps.drop (number + 1) := by
      rw [← List.drop_eq_getElem_cons short, List.take_append_drop]
    rw [cut, runSteps_append, before]
    simp only [List.length_take, Nat.min_eq_left (Nat.le_of_lt short), runSteps, fails]

/-- A run that comes to a step that fails ends there, but for the end of the batch. -/
theorem execute_failed {number : Nat} {stage stopped : Session State} {step : Step}
    {failure : RunError} (reached : session.Stage database surroundings number stage)
    (within : session.context.queue.steps[number]? = some step)
    (fails : stage.runStep database (surroundings number) step = (.error failure, stopped)) :
    session.execute database surroundings =
      answered database session.needsLock
        (.error failure,
          if session.context.isWrapped then stopped.abort database else stopped) := by
  obtain ⟨start, ⟨held, secured, ready⟩, before⟩ := reached
  have steps : start.runSteps database surroundings 0 session.context.queue.steps =
      (.error failure, stopped) :=
    runSteps_error_iff.mpr ⟨number, step, stage, within, before, by rwa [Nat.zero_add]⟩
  rw [execute_stages, secured]
  dsimp only
  rw [runQueue_stages, ready, secured_context secured]
  dsimp only [batch]
  rw [steps]
  unfold closed
  split <;> rfl

/-- If some of the first steps fails, then at a stage of the run. -/
theorem Enters.failsAt {start : Session State} {number : Nat} {failure : RunError}
    (enters : session.Enters database start)
    (went : start.runSteps database surroundings 0 (session.context.queue.steps.take number) =
      (.error failure, after)) :
    ∃ earlier, session.FailsAt database surroundings earlier failure := by
  obtain ⟨earlier, step, stage, within, before, fails⟩ := runSteps_error_iff.mp went
  rw [List.getElem?_take] at within
  split at within
  · rename_i short
    rw [List.take_take, Nat.min_eq_left (Nat.le_of_lt short)] at before
    rw [Nat.zero_add] at fails
    exact ⟨earlier, stage, step, after, ⟨start, enters, before⟩, within, fails⟩
  · cases within

theorem FailsAt.answer {number : Nat} {failure : RunError}
    (fails : session.FailsAt database surroundings number failure) :
    (session.execute database surroundings).1 = .error (.run failure) := by
  obtain ⟨stage, step, stopped, reached, within, ran⟩ := fails
  rw [execute_failed reached within ran]
  exact answered_error _ _ _

section Opening

variable {database : Database State} {surroundings : Surroundings}
  {session held start : Session (State × List Database.Call)}

theorem secured_calls {result : Except DatabaseError Unit}
    (secured : session.secured database.recorded = (result, held)) :
    held.database.2 = session.database.2 ++ if session.needsLock then [.lock] else [] := by
  unfold Session.secured at secured
  split at secured <;> rename_i needs
  · obtain ⟨answer, state, -⟩ := call_parts secured
    rw [if_pos needs]
    exact Database.recorded_listed (Prod.ext answer state)
  · obtain ⟨-, rfl⟩ := Prod.mk.inj secured
    rw [if_neg needs, List.append_nil]

theorem needsLock_of_refused {error : DatabaseError}
    (refused : session.secured database.recorded = (.error error, held)) :
    session.needsLock = true := by
  unfold Session.secured at refused
  split at refused
  · assumption
  · cases (Prod.mk.inj refused).1

theorem isWrapped_of_refused {failure : RunError}
    (refused : held.started database.recorded = (.error failure, start)) :
    held.context.isWrapped = true := by
  rw [started_taken] at refused
  split at refused
  · assumption
  · cases (Prod.mk.inj refused).1

theorem Reachable.needsLock_iff {database : Database State} {session : Session State}
    (reachable : session.Reachable database) : session.needsLock = true ↔
      session.context.dryRun = false ∧ session.context.queue.HasEffects := by
  rw [← reachable.faithful.effectful_iff]
  simp [needsLock, and_comm]

theorem Reachable.isWrapped_iff {database : Database State} {session : Session State}
    (reachable : session.Reachable database) : session.context.isWrapped = true ↔
      session.context.autoTransaction = true ∧ session.context.queue.HasEffects := by
  rw [← reachable.faithful.effectful_iff]
  simp [Context.isWrapped]

/-- The lock is taken once, before anything else, if the run needs it. -/
theorem execute_calls (session : Session (State × List Database.Call)) :
    ∃ rest, (session.execute database.recorded surroundings).2.database.2 =
      session.database.2 ++ (if session.needsLock then [.lock] else []) ++ rest ∧
        .lock ∉ rest := by
  rw [execute_stages]
  rcases secured : session.secured database.recorded with ⟨error | _, held⟩ <;>
    rw [← secured_calls secured]
  · exact ⟨[], (List.append_nil _).symm, List.not_mem_nil⟩
  · obtain ⟨made, record, batch⟩ :=
      (runQueue_follows database.recorded surroundings held).reach.recorded
    have unlocked : .lock ∉ made := fun locks => nomatch batch .lock locks
    simp only [answered_database]
    split
    · refine ⟨made ++ [.unlock], ?_, by simpa using unlocked⟩
      rw [Database.recorded_listed (Prod.eta _).symm, record, List.append_assoc]
    · exact ⟨made, record, unlocked⟩

/-- Before the first step a transaction is opened, if the batch is to have one, and nothing else. -/
theorem started_calls (ready : held.started database.recorded = (.ok (), start)) :
    start.database.2 = held.database.2 ++
        (if held.context.isWrapped && !held.context.dryRun then [.begin] else []) ∧
      (start.context.inTransaction = true ∧ held.context.inTransaction = false ↔
        held.context.isWrapped = true) := by
  rw [started_taken] at ready
  cases wrapped : held.context.isWrapped <;> rw [wrapped] at ready
  · obtain ⟨-, rfl⟩ := Prod.mk.inj ready
    simp [taken, withContext, Context.emptied]
  · have switch := begin_switch database.recorded held.taken
    rw [if_pos rfl] at ready
    rw [ready] at switch
    cases switch with
    | logged _ closed dry same context =>
        have dry : held.context.dryRun = true := dry
        have closed : held.context.inTransaction = false := closed
        rw [context, same]
        simp [dry, closed, taken, withContext]
    | moved reply _ closed wet called context =>
        have wet : held.context.dryRun = false := wet
        have closed : held.context.inTransaction = false := closed
        rw [context, Database.recorded_listed called]
        simp [wet, closed, taken, withContext]

/-- A run takes the lock, and its batch has a transaction of its own, as the steps that wait ask for
it, whatever was planned, queued, cut off, taken out or failed before. The queue's note on effects
is true of its steps. The lock is called for, before all else, just when the run is not dry and a
step has effects; the transaction is opened before the first step just when transactions are
automatic and a step has effects, which the database is called for unless the run is dry. A run
that comes to no step was refused the one or the other. -/
theorem opening_follows_queue (surroundings : Surroundings)
    (reachable : session.Reachable database.recorded) :
    (session.context.queue.effectful = true ↔ session.context.queue.HasEffects) ∧
    (∃ made, (session.execute database.recorded surroundings).2.database.2 =
        session.database.2 ++ made ∧
      (.lock ∈ made ↔ session.context.dryRun = false ∧ session.context.queue.HasEffects) ∧
      (.lock ∈ made → made.head? = some .lock ∧ made.count .lock = 1)) ∧
    (∀ start, session.Enters database.recorded start →
      (start.context.inTransaction = true ∧ session.context.inTransaction = false ↔
        session.context.autoTransaction = true ∧ session.context.queue.HasEffects) ∧
      ∃ made, start.database.2 = session.database.2 ++ made ∧
        (.begin ∈ made ↔ session.context.dryRun = false ∧
          session.context.autoTransaction = true ∧ session.context.queue.HasEffects)) ∧
    ((∀ start, ¬ session.Enters database.recorded start) →
      (session.context.dryRun = false ∧ session.context.queue.HasEffects ∧
        ∃ error, (session.execute database.recorded surroundings).1 = .error (.database error)) ∨
      (session.context.autoTransaction = true ∧ session.context.queue.HasEffects ∧
        ∃ failure, (session.execute database.recorded surroundings).1 = .error (.run failure))) := by
  have needs := reachable.needsLock_iff
  have wraps := reachable.isWrapped_iff
  refine ⟨reachable.faithful.effectful_iff, ?_, fun start enters => ?_, fun none => ?_⟩
  -- the lock
  · obtain ⟨rest, record, other⟩ := execute_calls session
    refine ⟨_, by rw [record, List.append_assoc], ?_, ?_⟩
    · rw [← needs]
      simp [other]
    · split
      · simp [List.count_eq_zero.mpr other]
      · exact fun locks => absurd locks (by simpa using other)
  -- the transaction
  · obtain ⟨held, secured, ready⟩ := enters
    have same := secured_context secured
    obtain ⟨record, opens⟩ := started_calls ready
    rw [same] at opens record
    rw [← wraps]
    refine ⟨opens, _, by rw [record, secured_calls secured, List.append_assoc], ?_⟩
    cases session.needsLock <;> cases session.context.isWrapped <;>
      cases session.context.dryRun <;> simp
  -- no step is come to only if the lock or the transaction is refused
  · have executed := execute_executed database.recorded surroundings session
    generalize session.execute database.recorded surroundings = answer at executed ⊢
    cases executed with
    | notSecured refused =>
        obtain ⟨wet, effects⟩ := needs.mp (needsLock_of_refused refused)
        exact .inl ⟨wet, effects, _, rfl⟩
    | notStarted secured refused =>
        have wrapped := isWrapped_of_refused refused
        rw [secured_context secured] at wrapped
        obtain ⟨automatic, effects⟩ := wraps.mp wrapped
        exact .inr ⟨automatic, effects, _, answered_error _ _ _⟩
    | entered enters => exact absurd enters (none _)

/-- The session on an empty folder, when a script has been queued behind the names of schemas. -/
def lengthened : Session (Database.Journal × List Database.Call) :=
  listing.withContext (listing.context.extend [.execScript "select 1"])

/-- The same session, when the script has been cut off again. -/
def shortened : Session (Database.Journal × List Database.Call) :=
  lengthened.withContext (lengthened.context.truncate 1)

theorem opening_follows_queue_cut :
    (.lock ∈ (lengthened.execute Database.Journal.database.recorded fun _ => {}).2.database.2) ∧
      .lock ∉ (shortened.execute Database.Journal.database.recorded fun _ => {}).2.database.2 := by
  have queued : lengthened.Reachable Database.Journal.database.recorded :=
    .extended _ listing_reachable
  have cut : shortened.Reachable Database.Journal.database.recorded := .truncated 1 queued
  constructor
  · obtain ⟨-, ⟨made, record, locks, -⟩, -⟩ :=
      opening_follows_queue (fun _ => {}) queued
    rw [record]
    have effects : lengthened.context.queue.HasEffects := ⟨.execScript "select 1", by decide, rfl⟩
    exact List.mem_append_right _ (locks.mpr ⟨rfl, effects⟩)
  · obtain ⟨-, ⟨made, record, locks, -⟩, -⟩ :=
      opening_follows_queue (fun _ => {}) cut
    rw [record]
    intro member
    change Database.Call.lock ∈ made at member
    obtain ⟨-, step, among, effects⟩ := locks.mp member
    have left : shortened.context.queue.steps = [.list .schemas ["main"]] := rfl
    rw [left] at among
    obtain rfl := List.mem_singleton.mp among
    cases effects

end Opening

end Session

end Rollout
