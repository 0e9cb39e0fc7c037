import Rollout.Proofs.Session.Planning

/-!
Sequences of uses. A session is planned in and run as often as one likes; whatever fails in between,
its settings stay, and only the queue and the place in a run change.
-/

namespace Rollout.Session

variable {State : Type}

/-- A use of a session: a text is planned, or what waits is run. -/
inductive Use where
  | plan (world : World) (text : String)
  | execute (surroundings : Surroundings)

/-- The session after a use, whether that failed or not. -/
def use (database : Database State) (session : Session State) : Use → Session State
  | .plan world text => (session.plan database world text).2
  | .execute surroundings => (session.execute database surroundings).2

def useAll (database : Database State) (session : Session State) (uses : List Use) :
    Session State :=
  uses.foldl (use database) session

variable (database : Database State) (session : Session State)

theorem useAll_append (first rest : List Use) :
    session.useAll database (first ++ rest) = (session.useAll database first).useAll database rest :=
  List.foldl_append

/-- What every use keeps is kept by any number of them. -/
theorem useAll_keeps (kept : Session State → Prop)
    (each : ∀ session use, kept session → kept (session.use database use)) (start : kept session)
    (uses : List Use) : kept (session.useAll database uses) := by
  induction uses generalizing session with
  | nil => exact start
  | cons use rest ih => exact ih _ (each session use start)

theorem plan_context (world : World) (text : String) :
    ∃ queue attempted, (session.plan database world text).2.context =
      { session.context with queue := queue, attempted := attempted } := by
  unfold plan
  split
  · exact ⟨_, _, rfl⟩
  · rename_i commands _
    rcases planned : session.planCommands database world commands with ⟨_ | count, after⟩ <;>
      obtain ⟨added, ⟨⟨attempted, context⟩, -⟩, -⟩ := planCommands_appends planned
    · refine ⟨(session.context.queue.append added).truncate session.context.queue.length,
        attempted, ?_⟩
      simp only [withContext, Context.truncate, context]
    · exact ⟨_, attempted, context⟩

theorem runQueue_context (surroundings : Surroundings) :
    (session.runQueue database surroundings).2.context =
      { session.context with
        queue := {}
        inTransaction := (session.runQueue database surroundings).2.context.inTransaction
        depth := (session.runQueue database surroundings).2.context.depth } := by
  unfold runQueue
  dsimp only
  split
  · exact (runWrapped_inBatch database surroundings _ _).context
  · exact (runSteps_inBatch database surroundings _ 0 _).context

theorem execute_context (surroundings : Surroundings) :
    ∃ isOpen depth, (session.execute database surroundings).2.context =
      { session.context with queue := {}, inTransaction := isOpen, depth := depth } := by
  unfold execute
  split
  · split <;> rename_i secured <;> have same := (call_parts secured).2.2
    · exact ⟨_, _, by rw [same]; rfl⟩
    · rw [release_context, runQueue_context, same]
      exact ⟨_, _, rfl⟩
  · exact ⟨_, _, runQueue_context database session surroundings⟩

/-- Two sessions that have the same settings. -/
structure SameSettings (first second : Session State) : Prop where
  autoTransaction : second.context.autoTransaction = first.context.autoTransaction
  dryRun : second.context.dryRun = first.context.dryRun

theorem use_settings (use : Use) : SameSettings session (session.use database use) := by
  cases use with
  | plan world text =>
      obtain ⟨queue, attempted, context⟩ := plan_context database session world text
      exact ⟨by rw [Session.use, context], by rw [Session.use, context]⟩
  | execute surroundings =>
      obtain ⟨isOpen, depth, context⟩ := execute_context database session surroundings
      exact ⟨by rw [Session.use, context], by rw [Session.use, context]⟩

theorem useAll_settings (uses : List Use) :
    SameSettings session (session.useAll database uses) := by
  refine useAll_keeps database session (SameSettings session) ?_ ⟨rfl, rfl⟩ uses
  intro current use same
  have next := use_settings database current use
  exact ⟨next.autoTransaction.trans same.autoTransaction, next.dryRun.trans same.dryRun⟩

end Rollout.Session
