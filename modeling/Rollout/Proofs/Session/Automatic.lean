import Rollout.Proofs.Plan.Owned
import Rollout.Proofs.Plan.Shape
import Rollout.Proofs.Session.Failures
import Rollout.Proofs.Session.Uses

/-!
Sessions with automatic transactions. Each batch has a transaction of its own, which is closed again
however the batch goes; so no transaction is ever met in a state that it should not have, and no
text that would open or close one has a plan.
-/

namespace Rollout.Session

variable {State : Type}

/-- Transactions are automatic, none is open, and no step that waits would open or close one. -/
structure Automatic (session : Session State) : Prop where
  mode : session.context.autoTransaction = true
  closed : session.context.inTransaction = false
  ordinary : ∀ step ∈ session.context.queue.steps, step.isTransaction = false

/-- No transaction was to be opened or closed out of turn. -/
def InTurn {Answer : Type} (answer : Except RunError Answer) : Prop :=
  ∀ error, answer ≠ .error (.transaction error)

section Runs

variable (database : Database State) {surroundings : Surroundings} {session : Session State}

/-- Steps that neither open nor close a transaction leave it as it is, and do not miss it. -/
theorem runSteps_ordinary {index : Nat} {steps : List Step}
    (ordinary : ∀ step ∈ steps, step.isTransaction = false) :
    (session.runSteps database surroundings index steps).2.context.inTransaction =
        session.context.inTransaction ∧
      InTurn (session.runSteps database surroundings index steps).1 := by
  induction steps generalizing session index with
  | nil => exact ⟨rfl, nofun⟩
  | cons step rest ih =>
      obtain ⟨plain, later⟩ := List.forall_mem_cons.mp ordinary
      have kept : (session.runStep database (surroundings index) step).2.context.inTransaction =
          session.context.inTransaction := by
        rw [runStep_context database (surroundings index) session plain]
      have fails := runStep_fails database (surroundings index) session plain
      unfold runSteps
      split <;> rename_i ran <;> rw [ran] at kept fails
      · refine ⟨kept, ?_⟩
        rintro error ⟨⟩
        cases (fails _ rfl).isOutside
      · obtain ⟨same, inTurn⟩ := ih later
        exact ⟨same.trans kept, inTurn⟩

/-- Whatever becomes of the transaction, it does not count as open any more. -/
theorem abort_closed (session : Session State) :
    (session.abort database).context.inTransaction = false := by
  unfold abort
  split <;> rename_i noted
  · have switch := rollback_switch database session
    split <;> rename_i ended <;> rw [ended] at switch
    · cases switch with
      | logged _ _ _ _ context => rw [context]; rfl
      | moved _ _ _ _ _ context => rw [context]; rfl
    · rfl
  · simpa using noted

/-- A batch with a transaction of its own ends without one. -/
theorem closed_automatic {ran : Result State Unit} (inTurn : InTurn ran.1)
    (noted : ran.2.context.inTransaction = true) :
    (Session.closed database true ran).2.context.inTransaction = false ∧
      InTurn (Session.closed database true ran).1 := by
  unfold Session.closed
  rw [if_pos rfl]
  rcases ran with ⟨failure | _, worked⟩
  · exact ⟨abort_closed database worked, inTurn⟩
  · have switch := commit_switch database worked
    dsimp only
    split <;> rename_i ended <;> rw [ended] at switch
    · refine ⟨abort_closed database _, ?_⟩
      cases switch with
      | refused error other => exact absurd noted other
      | failed error after ready called context => nofun
    · refine ⟨?_, nofun⟩
      cases switch with
      | logged _ _ _ _ context => rw [context]; rfl
      | moved _ _ _ _ _ context => rw [context]; rfl

/-- A transaction is opened only where none is open. -/
theorem started_automatic (closed : session.context.inTransaction = false) :
    match session.started database with
    | (.error failure, after) =>
        after.context.inTransaction = false ∧ ∀ error, failure ≠ .transaction error
    | (.ok (), start) => start.context.inTransaction = session.context.isWrapped := by
  rw [started_taken]
  cases session.context.isWrapped
  · exact closed
  · have switch := begin_switch database session.taken
    rw [if_pos rfl]
    split <;> rename_i ended <;> rw [ended] at switch
    · cases switch with
      | refused error other => exact absurd closed other
      | failed error after ready called context =>
          rw [context]
          exact ⟨closed, nofun⟩
    · cases switch with
      | logged _ _ _ _ context => rw [context]; rfl
      | moved _ _ _ _ _ context => rw [context]; rfl

theorem runQueue_automatic (automatic : session.Automatic) :
    (session.runQueue database surroundings).2.context.inTransaction = false ∧
      InTurn (session.runQueue database surroundings).1 := by
  have started := started_automatic database automatic.closed
  rw [runQueue_stages]
  rcases ready : session.started database with ⟨failure | _, start⟩ <;> rw [ready] at started
  · obtain ⟨closed, inTurn⟩ := started
    refine ⟨closed, ?_⟩
    rintro error ⟨⟩
    exact inTurn error rfl
  · let ran := start.runSteps database surroundings 0 session.context.queue.steps
    obtain ⟨same, inTurn⟩ : ran.2.context.inTransaction = start.context.inTransaction ∧
      InTurn ran.1 := runSteps_ordinary database automatic.ordinary
    have noted := same.trans started
    unfold batch
    dsimp only
    cases wrapped : session.context.isWrapped <;> rw [wrapped] at noted
    · refine ⟨noted, ?_⟩
      intro error failed
      exact inTurn error (Outcome.map_eq_error.mp failed)
    · obtain ⟨closed, ended⟩ := closed_automatic database inTurn noted
      refine ⟨closed, ?_⟩
      intro error failed
      exact ended error (Outcome.map_eq_error.mp failed)

/-- However a run goes, it leaves no transaction open and has met none out of turn. -/
theorem execute_automatic (automatic : session.Automatic) :
    (session.execute database surroundings).2.Automatic ∧
      ∀ error, (session.execute database surroundings).1 ≠ .error (.run (.transaction error)) := by
  obtain ⟨isOpen, depth, context⟩ := execute_context database session surroundings
  have empty : ∀ step ∈ (session.execute database surroundings).2.context.queue.steps,
      step.isTransaction = false := by
    rw [execute_queue]
    exact List.forall_mem_nil _
  have mode : (session.execute database surroundings).2.context.autoTransaction = true := by
    rw [context]
    exact automatic.mode
  clear context
  rw [execute_stages] at *
  rcases secured : session.secured database with ⟨error | _, held⟩ <;> rw [secured] at empty mode
  · have same := secured_context secured
    refine ⟨⟨mode, ?_, empty⟩, nofun⟩
    exact (congrArg Context.inTransaction same).trans automatic.closed
  · have same := secured_context secured
    have still : held.Automatic :=
      ⟨by rw [same]; exact automatic.mode, by rw [same]; exact automatic.closed,
        by rw [same]; exact automatic.ordinary⟩
    obtain ⟨closed, inTurn⟩ : (held.runQueue database surroundings).2.context.inTransaction =
      false ∧ InTurn (held.runQueue database surroundings).1 := runQueue_automatic database still
    refine ⟨⟨mode, ?_, empty⟩, ?_⟩
    · rw [answered_context]
      exact closed
    · intro error failed
      dsimp only at failed
      rcases ran : held.runQueue database surroundings with ⟨failure | count, last⟩ <;>
        rw [ran] at inTurn failed
      · rw [answered_error] at failed
        cases failed
        exact inTurn error rfl
      · rcases answered_ok database session.needsLock count last with done | ⟨fault, refused, -⟩
        · cases done.symm.trans failed
        · cases refused.symm.trans failed

end Runs

section Plans

variable {database : Database State} {world : World} {session : Session State}

/-- With automatic transactions no step of a plan opens or closes one. -/
theorem Plans.ordinary {commands : List Command} {steps : List Step} {state last : State}
    (automatic : session.context.autoTransaction = true)
    (plans : Plans database world session commands state steps last) :
    ∀ step ∈ steps, step.isTransaction = false := by
  induction plans with
  | nil => exact List.forall_mem_nil _
  | @cons command tree plan rest steps state next last opened planned ended later ih =>
      refine List.forall_mem_append.mpr ⟨?_, ih⟩
      intro step member
      rw [Bool.eq_false_iff]
      intro switches
      let planner := session.planner world tree command.ref
      have settled : (Plan.settle (some database) (planner.plan command).outcome
          (planner.plan command).events state).1 = plan := congrArg Prod.fst planned
      have ended : (Plan.settle (some database) (planner.plan command).outcome
          (planner.plan command).events state).1.outcome = .ok () := by rw [settled, ended]
      obtain ⟨outcome, becomes⟩ := Plan.settle_becomes ended
      rw [settled] at becomes
      have block := planner.planWith_block Planner.depthLimit command () _ outcome becomes
      have manual := block.manual member switches
      exact absurd (manual.symm.trans automatic) (by decide)

theorem plan_queue (database : Database State) (world : World) (text : String)
    (session : Session State) :
    ∃ steps, (session.plan database world text).2.context.queue.steps =
        session.context.queue.steps ++ steps ∧
      (session.context.autoTransaction = true → ∀ step ∈ steps, step.isTransaction = false) := by
  unfold plan
  split
  · exact ⟨[], (List.append_nil _).symm, fun _ => List.forall_mem_nil _⟩
  · rename_i commands _
    dsimp only
    rcases planned : session.planCommands database world commands with ⟨failure | count, after⟩ <;>
      obtain ⟨added, ⟨⟨attempted, context⟩, -⟩, ends⟩ := planCommands_appends planned
    · -- what was added before the command that failed is cut off again
      refine ⟨[], ?_, fun _ => List.forall_mem_nil _⟩
      simp [withContext, Context.truncate, Queue.truncate, context, Queue.append_steps,
        Queue.length]
    · refine ⟨added, ?_, fun automatic => (ends count rfl).1.ordinary automatic⟩
      rw [context]
      exact Queue.append_steps _ _

theorem plan_automatic (database : Database State) (world : World) (text : String)
    (automatic : session.Automatic) :
    (session.plan database world text).2.Automatic := by
  obtain ⟨queue, attempted, context⟩ := plan_context database session world text
  obtain ⟨steps, grown, ordinary⟩ := plan_queue database world text session
  refine ⟨by rw [context]; exact automatic.mode, by rw [context]; exact automatic.closed, ?_⟩
  rw [grown]
  exact List.forall_mem_append.mpr ⟨automatic.ordinary, ordinary automatic.mode⟩

/-- The commands that a text means: its own, and those of the files of commands that are inlined
when it is planned in a session. -/
inductive Means (world : World) (session : Session State) (text : String) : Command → Prop where
  | written {commands : List Command} {command : Command}
      (parsed : Command.parse Grammar.builtin text = .ok commands) (member : command ∈ commands) :
      Means world session text command
  | inlined {commands : List Command} {outer command : Command} {tree : Tree} {file : FileRef}
      (parsed : Command.parse Grammar.builtin text = .ok commands) (member : outer ∈ commands)
      (opened : (session.sources.get world.workspace outer.ref).1 = .ok tree)
      (entered : .step (.enterFile file) ∈
        ((session.planner world tree outer.ref).plan outer).events)
      (holds : (session.planner world tree outer.ref).Holds file command) :
      Means world session text command

/-- Every command of a text that is planned has a plan in the session as it was at first. -/
theorem Plans.outcome {commands : List Command} {steps : List Step} {state last : State}
    (plans : Plans database world session commands state steps last) {command : Command}
    (member : command ∈ commands) : ∃ tree,
      (session.sources.get world.workspace command.ref).1 = .ok tree ∧
        ((session.planner world tree command.ref).plan command).outcome = .ok () := by
  induction plans with
  | nil => cases member
  | @cons first tree plan rest steps state next last opened planned ended later ih =>
      rcases List.mem_cons.mp member with rfl | deeper
      · refine ⟨tree, opened, ?_⟩
        have settled := congrArg (fun settled => settled.1.outcome) planned
        exact (Plan.settle_becomes (settled.trans ended)).1
      · exact ih deeper

theorem Means.parsed {text : String} {command : Command}
    (means : session.Means world text command) :
    ∃ commands, Command.parse Grammar.builtin text = .ok commands := by
  cases means with
  | written parsed => exact ⟨_, parsed⟩
  | inlined parsed => exact ⟨_, parsed⟩

/-- A text that means a command about transactions has no plan. -/
theorem plan_refuses (automatic : session.context.autoTransaction = true) {text : String}
    {command : Command} (means : session.Means world text command)
    (transaction : command.isTransaction = true) (database : Database State) :
    ∃ failure, (session.plan database world text).1 = .error (.plan failure) := by
  rcases planned : session.plan database world text with ⟨failure | count, after⟩
  · obtain ⟨commands, parsed⟩ := means.parsed
    unfold plan at planned
    rw [parsed] at planned
    dsimp only at planned
    split at planned <;> cases planned
    exact ⟨_, rfl⟩
  · obtain ⟨commands, steps, understood, plans, -, -⟩ := plan_ok planned
    have ordinary : command.isTransaction = false := by
      cases means with
      | written parsed member =>
          cases parsed.symm.trans understood
          obtain ⟨tree, -, outcome⟩ := plans.outcome member
          exact Planner.planWith_ordinary automatic outcome
      | inlined parsed member opened entered holds =>
          cases parsed.symm.trans understood
          obtain ⟨tree, found, outcome⟩ := plans.outcome member
          cases opened.symm.trans found
          refine Planner.planWith_spotless automatic ?_ _ () outcome _ entered _ holds
          exact Planner.inlineFile_spotless automatic Planner.depthLimit
    rw [transaction] at ordinary
    cases ordinary

end Plans

/-- What a session is asked for: to plan a text, to run what waits, or both. -/
inductive Demand where
  | plan (world : World) (text : String)
  | execute (surroundings : Surroundings)
  | run (surroundings : Surroundings) (text : String)

def meet (database : Database State) (session : Session State) :
    Demand → Except SessionError Nat × Session State
  | .plan world text => session.plan database world text
  | .execute surroundings => session.execute database surroundings
  | .run surroundings text => session.run database surroundings text

/-- The session after all that it was asked for, whether that failed or not. -/
def meetAll (database : Database State) (session : Session State) (demands : List Demand) :
    Session State :=
  demands.foldl (fun session demand => (session.meet database demand).2) session

section Demands

variable (database : Database State) {session : Session State}

theorem run_automatic (surroundings : Surroundings) (text : String)
    (automatic : session.Automatic) :
    (session.run database surroundings text).2.Automatic ∧
      ∀ error, (session.run database surroundings text).1 ≠ .error (.run (.transaction error)) := by
  have planned := plan_automatic database (surroundings 0) text automatic
  unfold run
  rcases went : session.plan database (surroundings 0) text with ⟨failure | count, after⟩ <;>
    rw [went] at planned
  · refine ⟨planned, ?_⟩
    rintro error ⟨⟩
    -- planning has no such failure
    unfold plan at went
    split at went
    · cases went
    · dsimp only at went
      split at went <;> cases went
  · exact execute_automatic database planned

theorem meet_automatic (demand : Demand) (automatic : session.Automatic) :
    (session.meet database demand).2.Automatic := by
  cases demand with
  | plan world text => exact plan_automatic database world text automatic
  | execute surroundings => exact (execute_automatic database automatic).1
  | run surroundings text => exact (run_automatic database surroundings text automatic).1

theorem meetAll_automatic (demands : List Demand) (automatic : session.Automatic) :
    (session.meetAll database demands).Automatic := by
  induction demands generalizing session with
  | nil => exact automatic
  | cons demand rest ih => exact ih (meet_automatic database demand automatic)

end Demands

/-- Where transactions are automatic, whatever a session was asked for and whichever calls of its
database have failed, it is outside of a transaction; no run meets one out of turn; and no text has
a plan that means to open or close one, be it in files of commands that it leads to. -/
theorem automatic_keeps_turn (database : Database State) (session : Session State)
    (mode : session.context.autoTransaction = true)
    (closed : session.context.inTransaction = false)
    (ordinary : ∀ step ∈ session.context.queue.steps, step.isTransaction = false)
    (demands : List Demand) :
    let current := session.meetAll database demands
    current.context.inTransaction = false ∧
      (∀ surroundings error,
        (current.execute database surroundings).1 ≠ .error (.run (.transaction error))) ∧
      (∀ surroundings text error,
        (current.run database surroundings text).1 ≠ .error (.run (.transaction error))) ∧
      ∀ world text command, current.Means world text command → command.isTransaction = true →
        ∃ failure, (current.plan database world text).1 = .error (.plan failure) := by
  intro current
  have automatic : current.Automatic := meetAll_automatic database demands ⟨mode, closed, ordinary⟩
  refine ⟨automatic.closed, fun surroundings => (execute_automatic database automatic).2,
    fun surroundings text => (run_automatic database surroundings text automatic).2, ?_⟩
  intro world text command means transaction
  exact plan_refuses automatic.mode means transaction database

/-- A database that can neither commit the first batch nor roll it back. -/
def losing : Database (Database.Journal × Nat) :=
  Database.Journal.database.faulty fun number =>
    if number = 5 ∨ number = 6 then some (.driver "gone") else none

/-- A session with automatic transactions, on the files in the working directory. -/
def selfClosing : Session (Database.Journal × Nat) where
  context := {}
  sources := {
    drivers := [("file", Tree.ofLocation)]
    base := { scheme := "file", path := ".", fragment := none } }
  database := ({}, 0)

/-- A file of commands among the seeds, which would roll back. -/
def undoing : World where
  workspace := {
    disk := .folder "seeds" (.file "all.ddsl" (.text "rollback transaction") .nil) .nil }

theorem automatic_keeps_turn_losing :
    let demands : List Demand := [.plan {} "sql \x60select 1\x60", .execute fun _ => {}]
    (selfClosing.meetAll losing (demands.take 1)).execute losing (fun _ => {}) =
        (.error (.run (.database (.driver "gone"))), selfClosing.meetAll losing demands) ∧
      (selfClosing.meetAll losing demands).context.inTransaction = false ∧
      losing.inTransaction (selfClosing.meetAll losing demands).database = true ∧
      ∃ failure, ((selfClosing.meetAll losing demands).plan losing undoing "seed database").1 =
        .error (.plan failure) := by
  intro demands
  have ran : ((selfClosing.meetAll losing (demands.take 1)).execute losing fun _ => {}).1 =
      .error (.run (.database (.driver "gone"))) := by decide +kernel
  obtain ⟨closed, -, -, refuses⟩ := automatic_keeps_turn losing selfClosing rfl rfl
    (List.forall_mem_nil _) demands
  have parsed : Command.parse Grammar.builtin "seed database" = .ok [⟨"seed", ["seed", "database"],
      some "database", none, [], none, "seed database", 1⟩] := by decide +kernel
  have opened : ((selfClosing.meetAll losing demands).sources.get undoing.workspace none).1 =
      .ok ⟨selfClosing.sources.base, none⟩ := by decide +kernel
  have holds : ((selfClosing.meetAll losing demands).planner undoing
      ⟨selfClosing.sources.base, none⟩ none).Holds ⟨"seeds/all.ddsl", none⟩
        ⟨"rollback", ["rollback", "transaction"], none, none, [], none, "rollback transaction", 1⟩ :=
    ⟨"rollback transaction", [_], by decide +kernel, by decide +kernel, List.mem_cons_self⟩
  have means : (selfClosing.meetAll losing demands).Means undoing "seed database"
      ⟨"rollback", ["rollback", "transaction"], none, none, [], none, "rollback transaction", 1⟩ :=
    .inlined parsed List.mem_cons_self opened (by decide +kernel) holds
  exact ⟨Prod.ext ran rfl, closed, by decide +kernel, refuses undoing _ _ means rfl⟩

end Rollout.Session
