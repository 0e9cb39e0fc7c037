import Rollout.Proofs.Queue
import Rollout.Proofs.Session.Effects

/-!
Batches are atomic. With automatic transactions, the steps that wait have all of their effects on
the contents of the database or none of them, whichever calls, files, programs or writes fail.
-/

namespace Rollout.Session

variable {State Contents : Type} {database : Database State} {contents saved : State → Contents}
  (transactional : database.Transactional contents saved)
  (rollsBack : ∀ state, database.inTransaction state = true →
    ∃ after, database.perform .rollback state = (.ok (), after))
  (surroundings : Surroundings) (session : Session State)

/-- A transaction is open, here and in the database, and what it would restore is this. -/
structure Holding (database : Database State) (saved : State → Contents) (restored : Contents)
    (session : Session State) : Prop where
  wet : session.context.dryRun = false
  noted : session.context.inTransaction = true
  isOpen : database.inTransaction session.database = true
  restores : saved session.database = restored

include transactional

theorem begin_holding {after : Session State} (wet : session.context.dryRun = false)
    (began : session.begin database = (.ok (), after)) :
    database.perform .begin session.database = (.ok (), after.database) ∧
      contents after.database = contents session.database ∧ after.sources = session.sources ∧
      Holding database saved (contents session.database) after := by
  have switch := begin_switch database session
  rw [began] at switch
  cases switch with
  | logged _ _ dry => simp [wet] at dry
  | moved _ _ _ _ called context sources =>
      obtain ⟨same, restores, isOpen⟩ := transactional.begins called
      exact ⟨called, same, sources, by rw [context]; exact wet, by rw [context]; rfl, isOpen,
        restores⟩

theorem begin_error {error : RunError} {after : Session State}
    (began : session.begin database = (.error error, after)) :
    contents after.database = contents session.database := by
  have switch := begin_switch database session
  rw [began] at switch
  cases switch with
  | refused => rfl
  | failed _ _ _ called => exact (transactional.fails called).1

theorem runSteps_holding {restored : Contents} (index : Nat) {steps : List Step}
    (ordinary : ∀ step ∈ steps, step.isTransaction = false)
    (holding : Holding database saved restored session) :
    Holding database saved restored (session.runSteps database surroundings index steps).2 := by
  have acts := runSteps_acts database session surroundings index steps
  have onData : ∀ call, (∃ step ∈ steps, step.mayCall call) → call.isData = true := by
    rintro call ⟨step, member, made⟩
    exact Step.mayCall_isData (ordinary step member) made
  obtain ⟨sameSaved, sameOpen⟩ := transactional.reach_keeps (acts.reach.mono onData)
  exact {
    wet := acts.dryRun.trans holding.wet
    noted := (acts.steady onData).trans holding.noted
    isOpen := sameOpen.trans holding.isOpen
    restores := sameSaved.trans holding.restores }

theorem commit_error {restored : Contents} {error : RunError} {after : Session State}
    (holding : Holding database saved restored session)
    (committed : session.commit database = (.error error, after)) :
    Holding database saved restored after := by
  have switch := commit_switch database session
  rw [committed] at switch
  cases switch with
  | refused => exact holding
  | failed _ _ _ called context =>
      obtain ⟨-, sameSaved, sameOpen⟩ := transactional.fails called
      exact {
        wet := by rw [context]; exact holding.wet
        noted := by rw [context]; exact holding.noted
        isOpen := sameOpen.trans holding.isOpen
        restores := sameSaved.trans holding.restores }

theorem commit_ok {after : Session State} (wet : session.context.dryRun = false)
    (committed : session.commit database = (.ok (), after)) :
    contents after.database = contents session.database ∧
      database.inTransaction after.database = false := by
  have switch := commit_switch database session
  rw [committed] at switch
  cases switch with
  | logged _ _ dry => simp [wet] at dry
  | moved _ _ _ _ called => exact transactional.commits called

include rollsBack

theorem abort_restores {restored : Contents} (holding : Holding database saved restored session) :
    contents (session.abort database).database = restored := by
  have switch := rollback_switch database session
  obtain ⟨last, succeeds⟩ := rollsBack _ holding.isOpen
  unfold abort
  rw [if_pos holding.noted]
  rcases ended : session.rollback database with ⟨_ | _, after⟩ <;> rw [ended] at switch
  · cases switch with
    | refused _ other => exact absurd holding.noted other
    | failed _ _ _ called => rw [succeeds] at called; cases (Prod.mk.inj called).1
  · cases switch with
    | logged _ _ dry => rw [holding.wet] at dry; cases dry
    | moved _ _ _ _ called => exact (transactional.rollsBack called).1.trans holding.restores

theorem runWrapped_atomic {steps : List Step} (wet : session.context.dryRun = false)
    (ordinary : ∀ step ∈ steps, step.isTransaction = false) :
    match session.runWrapped database surroundings steps with
    | (.ok (), after) =>
        database.inTransaction after.database = false ∧
          ∃ started sources finished,
            database.perform .begin session.database = (.ok (), started) ∧
            contents started = contents session.database ∧
            Step.effects database surroundings 0 steps (session.sources, started) =
              some (sources, finished) ∧
            contents after.database = contents finished
    | (.error _, after) => contents after.database = contents session.database := by
  unfold runWrapped
  rcases began : session.begin database with ⟨_ | _, opened⟩
  · exact begin_error transactional session began
  · -- from here on every way out is a commit or goes back to what was saved
    obtain ⟨called, same, sources, holding⟩ :=
      begin_holding transactional session wet began
    have held := runSteps_holding transactional surroundings opened 0 ordinary holding
    dsimp only
    rcases ran : opened.runSteps database surroundings 0 steps with ⟨_ | _, worked⟩ <;>
      rw [ran] at held
    · exact abort_restores transactional rollsBack worked held
    · have effects := runSteps_effects database opened holding.wet ordinary ran
      dsimp only
      rcases committed : worked.commit database with ⟨_ | _, after⟩
      · exact abort_restores transactional rollsBack after
          (commit_error transactional worked held committed)
      · obtain ⟨kept, closed⟩ := commit_ok transactional worked held.wet committed
        rw [sources] at effects
        exact ⟨closed, _, _, _, called, same, effects, kept⟩

omit transactional rollsBack in
/-- With automatic transactions, a queue with effects is run in one of its own. -/
theorem runQueue_wrapped (automatic : session.context.autoTransaction = true)
    (effectful : session.context.queue.effectful = true) :
    session.runQueue database surroundings =
      let ran := runWrapped database surroundings session.context.queue.steps
        (session.withContext { session.context.emptied with depth := 0 })
      (ran.1.map fun () => session.context.queue.length, ran.2) := by
  have both : (session.context.autoTransaction && session.context.queue.effectful) = true := by
    rw [automatic, effectful]; rfl
  unfold runQueue
  exact congrArg
    (fun ran : Result State Unit => (ran.1.map fun () => session.context.queue.length, ran.2))
    (if_pos both)

/-- A batch that succeeds has run all of its steps, and what they did is committed; a batch that
fails leaves the contents as they were. -/
theorem runQueue_atomic (automatic : session.context.autoTransaction = true)
    (wet : session.context.dryRun = false) (faithful : session.context.queue.Faithful)
    (effectful : ∃ step ∈ session.context.queue.steps, step.isList = false)
    (ordinary : ∀ step ∈ session.context.queue.steps, step.isTransaction = false) :
    match session.runQueue database surroundings with
    | (.ok count, after) =>
        count = session.context.queue.length ∧
          database.inTransaction after.database = false ∧
          ∃ started sources finished,
            database.perform .begin session.database = (.ok (), started) ∧
            contents started = contents session.database ∧
            Step.effects database surroundings 0 session.context.queue.steps
                (session.sources, started) = some (sources, finished) ∧
            contents after.database = contents finished
    | (.error _, after) => contents after.database = contents session.database := by
  obtain ⟨step, member, effects⟩ := effectful
  have wrapped := runWrapped_atomic transactional rollsBack surroundings
    (session.withContext { session.context.emptied with depth := 0 }) wet ordinary
  rw [runQueue_wrapped surroundings session automatic (faithful.effectful_of_mem member effects)]
  split at wrapped <;> rename_i ended <;> rw [ended]
  · exact ⟨rfl, wrapped⟩
  · exact wrapped

/-- An audited batch of two scripts, on a journal that refuses the second of them. -/
def refusedBatch : Session Database.Journal where
  context :=
    { queue := Queue.append {}
        [.runCommand "create", .execScript "first", .execScript "second"] }
  sources := { drivers := [], base := { scheme := "file", path := ".", fragment := none } }
  database := { contents := [.exec "earlier"], failures := [false, false, false, false, true] }

omit transactional rollsBack in
theorem runQueue_atomic_refused :
    refusedBatch.context.queue.Faithful ∧
      (refusedBatch.runQueue Database.Journal.database fun _ => {}).2.database.contents =
        [.exec "earlier"] :=
  ⟨rfl, runQueue_atomic Database.Journal.transactional
    (fun journal _ => Database.Journal.rollsBack journal) (fun _ => {}) refusedBatch rfl rfl rfl
    ⟨_, List.mem_cons_self, rfl⟩ (by decide)⟩

end Rollout.Session
