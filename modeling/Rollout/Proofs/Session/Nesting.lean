import Rollout.Proofs.Outcome
import Rollout.Proofs.Plan.Shape
import Rollout.Proofs.Session.Planning

/-!
The depth of runs. A queue that was built up from plans is a row of blocks, so a run of it leaves
only files that it has entered, and ends at the depth at which it began.
-/

namespace Rollout

/-- Plans a command on a source tree, in the mode of the context, and queues what it comes to. -/
def Context.plan {State : Type} (context : Context) (grammar : Grammar) (snapshot : Snapshot)
    (ref : Option String) (database : Option (Database State)) (state : State)
    (command : Command) : Except PlanError Nat × Context :=
  let planner : Planner := ⟨grammar, snapshot, ref, context.autoTransaction⟩
  context.takePlan ((planner.plan command).settle database state).1

theorem Context.plan_block {State : Type} {context after : Context} {grammar : Grammar}
    {snapshot : Snapshot} {ref : Option String} {database : Option (Database State)}
    {state : State} {command : Command} {count : Nat}
    (taken : context.plan grammar snapshot ref database state command = (.ok count, after)) :
    ∃ steps, after.queue.steps = context.queue.steps ++ steps ∧ steps.length = count ∧
      Step.Block context.autoTransaction Planner.depthLimit steps := by
  let planner : Planner := ⟨grammar, snapshot, ref, context.autoTransaction⟩
  unfold Context.plan Context.takePlan at taken
  dsimp only at taken
  split at taken <;> rename_i ended
  · cases taken
  · cases taken
    obtain ⟨outcome, becomes⟩ := Plan.settle_becomes ended
    exact ⟨_, Queue.append_steps _ _, rfl,
      planner.planWith_block Planner.depthLimit command () _ outcome becomes⟩

/-- Queues that are built up from nothing but plans. -/
inductive Queue.Planned : Queue → Prop where
  | empty : Planned {}
  | plan {State : Type} {context after : Context} {grammar : Grammar} {snapshot : Snapshot}
      {ref : Option String} {database : Option (Database State)} {state : State}
      {command : Command} {count : Nat} (earlier : Planned context.queue)
      (taken : context.plan grammar snapshot ref database state command = (.ok count, after)) :
      Planned after.queue

theorem Queue.Planned.returns {queue : Queue} (planned : queue.Planned) :
    Step.Returns Planner.depthLimit Planner.depthLimit queue.steps := by
  induction planned with
  | empty =>
      intro depth _
      rfl
  | plan _ taken ih =>
      obtain ⟨steps, whole, -, block⟩ := Context.plan_block taken
      intro depth fits
      rw [whole, Step.depthAfter_append, ih depth fits]
      exact block.returns depth fits

theorem Queue.Planned.faithful {queue : Queue} (planned : queue.Planned) : queue.Faithful := by
  induction planned with
  | empty => exact Queue.empty_faithful
  | plan _ taken ih =>
      unfold Context.plan Context.takePlan at taken
      dsimp only at taken
      split at taken
      · cases taken
      · cases taken
        exact Queue.append_faithful _ _ ih

theorem Step.nextDepth_eq_some {step : Step} {limit depth next : Nat}
    (moves : step.nextDepth limit depth = some next) : next = step.depthFrom depth := by
  cases step with
  | enterFile file =>
      simp only [nextDepth] at moves
      split at moves
      · exact (Option.some.inj moves).symm
      · cases moves
  | leaveFile file =>
      simp only [nextDepth] at moves
      split at moves
      · cases moves
      · exact (Option.some.inj moves).symm
  | _ => exact (Option.some.inj moves).symm

namespace Session

variable {State : Type} {database : Database State} {surroundings : Surroundings}
  {session after : Session State}

theorem planCommand_plan {world : World} {command : Command} {count : Nat}
    (planned : session.planCommand database world command = (.ok count, after)) :
    ∃ tree, (session.sources.get world.workspace command.ref).1 = .ok tree ∧
      session.context.plan Grammar.builtin (tree.snapshot world.workspace) command.ref
        (some database) session.database command = (.ok count, after.context) := by
  unfold planCommand Session.tree at planned
  dsimp only at planned
  split at planned <;> rename_i tree opened held <;> obtain ⟨found, rfl⟩ := Prod.mk.inj held
  · cases (Prod.mk.inj planned).1
  · obtain ⟨taken, rfl⟩ := Prod.mk.inj planned
    exact ⟨tree, found, Prod.ext taken rfl⟩

theorem planCommands_planned {world : World} {commands : List Command} {count : Nat}
    (built : session.context.queue.Planned)
    (planned : session.planCommands database world commands = (.ok count, after)) :
    after.context.queue.Planned := by
  induction commands generalizing session count with
  | nil =>
      obtain ⟨-, rfl⟩ := Prod.mk.inj planned
      exact built
  | cons command rest ih =>
      unfold planCommands at planned
      split at planned <;> rename_i one
      · cases (Prod.mk.inj planned).1
      · obtain ⟨more, rfl⟩ := Prod.mk.inj planned
        obtain ⟨queued, same, -⟩ := Outcome.map_eq_ok.mp more
        obtain ⟨tree, -, taken⟩ := planCommand_plan one
        exact ih (built.plan taken) (Prod.ext same rfl)

/-- Planning texts, with or without success, leaves a queue that is built up from plans. -/
theorem plan_planned (built : session.context.queue.Planned) (world : World) (text : String) :
    (session.plan database world text).2.context.queue.Planned := by
  rcases planned : session.plan database world text with ⟨failure | count, after⟩
  · obtain ⟨attempted, context⟩ := plan_error built.faithful planned
    rw [context]
    exact built
  · unfold plan at planned
    split at planned
    · cases (Prod.mk.inj planned).1
    · dsimp only at planned
      split at planned <;> rename_i went
      · obtain ⟨-, rfl⟩ := Prod.mk.inj planned
        exact planCommands_planned built went
      · cases (Prod.mk.inj planned).1

/-- The depth in a run is the one that the steps count to. -/
theorem runSteps_depth {limit index depth : Nat} {steps : List Step}
    (counts : Step.depthAfter limit steps session.context.depth = some depth)
    (ran : session.runSteps database surroundings index steps = (.ok (), after)) :
    after.context.depth = depth := by
  induction steps generalizing session index with
  | nil =>
      obtain ⟨-, rfl⟩ := Prod.mk.inj ran
      exact Option.some.inj counts
  | cons step rest ih =>
      obtain ⟨next, moves, later⟩ := Option.bind_eq_some_iff.mp counts
      have moved := runStep_depth database (surroundings index) session step
      unfold runSteps at ran
      split at ran <;> rename_i stepped
      · cases (Prod.mk.inj ran).1
      · rw [stepped, ← Step.nextDepth_eq_some moves] at moved
        apply ih _ ran
        rw [moved]
        exact later

/-- Readies a run: the queue is taken, and a transaction is opened if the batch is to have one. -/
def started (database : Database State) (session : Session State) : Result State Unit :=
  let queue := session.context.queue
  let session := session.withContext { session.context.emptied with depth := 0 }
  if session.context.autoTransaction && queue.effectful then session.begin database
  else (.ok (), session)

theorem started_depth (ready : session.started database = (.ok (), after)) :
    after.context.depth = 0 := by
  unfold started at ready
  dsimp only at ready
  split at ready
  · have switched := (begin_switch database
      (session.withContext { session.context.emptied with depth := 0 })).depth
    rw [ready] at switched
    exact switched
  · obtain ⟨-, rfl⟩ := Prod.mk.inj ready
    rfl

theorem runWrapped_ok {steps : List Step}
    (ran : session.runWrapped database surroundings steps = (.ok (), after)) :
    ∃ opened worked, session.begin database = (.ok (), opened) ∧
      opened.runSteps database surroundings 0 steps = (.ok (), worked) ∧
      worked.commit database = (.ok (), after) := by
  unfold runWrapped at ran
  split at ran
  · cases (Prod.mk.inj ran).1
  · rename_i opened began
    split at ran
    · cases (Prod.mk.inj ran).1
    · rename_i worked steps
      split at ran
      · cases (Prod.mk.inj ran).1
      · rename_i committed
        obtain ⟨-, rfl⟩ := Prod.mk.inj ran
        exact ⟨opened, worked, began, steps, committed⟩

/-- A batch that comes to its end was readied and then ran all of its steps. -/
theorem runQueue_started {count : Nat}
    (ran : session.runQueue database surroundings = (.ok count, after)) :
    ∃ start worked, session.started database = (.ok (), start) ∧
      start.runSteps database surroundings 0 session.context.queue.steps = (.ok (), worked) ∧
      after.context.depth = worked.context.depth := by
  unfold runQueue at ran
  unfold started
  dsimp only at ran ⊢
  split at ran <;> rename_i mode <;> obtain ⟨result, rfl⟩ := Prod.mk.inj ran <;>
    obtain ⟨done, ended, -⟩ := Outcome.map_eq_ok.mp result
  · rw [if_pos mode]
    obtain ⟨opened, worked, began, steps, committed⟩ := runWrapped_ok (Prod.ext ended rfl)
    have switched := (commit_switch database worked).depth
    rw [committed] at switched
    exact ⟨opened, worked, began, steps, switched⟩
  · rw [if_neg mode]
    exact ⟨_, _, rfl, Prod.ext ended rfl, rfl⟩

/-- A command that is planned adds one block, in which files of commands nest at most sixteen deep
and which opens or closes transactions only if that is not done automatically. Planning texts keeps
a queue built up from such blocks; one that is run to its end leaves the depth at zero, and no file
is ever left at depth zero. -/
theorem planned_block_nesting :
    (∀ (context after : Context) (grammar : Grammar) (snapshot : Snapshot) (ref : Option String)
        (asked : Option (Database State)) (state : State) (command : Command) (count : Nat),
      context.plan grammar snapshot ref asked state command = (.ok count, after) →
        ∃ steps, after.queue.steps = context.queue.steps ++ steps ∧ steps.length = count ∧
          Step.Block context.autoTransaction 16 steps ∧
          ∀ step ∈ steps, step.isTransaction = true → context.autoTransaction = false) ∧
    (∀ (database : Database State) (world : World) (session : Session State) (text : String),
      session.context.queue.Planned →
        (session.plan database world text).2.context.queue.Planned) ∧
    ∀ (database : Database State) (surroundings : Surroundings) (session : Session State),
      session.context.queue.Planned →
        (∀ count after, session.runQueue database surroundings = (.ok count, after) →
          after.context.depth = 0) ∧
        ∀ start front file rest before, session.started database = (.ok (), start) →
          session.context.queue.steps = front ++ .leaveFile file :: rest →
          start.runSteps database surroundings 0 front = (.ok (), before) →
          0 < before.context.depth := by
  refine ⟨?_, fun _ world session text built => plan_planned built world text, ?_⟩
  · intro context after grammar snapshot ref asked state command count taken
    obtain ⟨steps, whole, length, block⟩ := Context.plan_block taken
    exact ⟨steps, whole, length, block, fun step => block.manual⟩
  · intro database surroundings session planned
    have counts := planned.returns 0 (Nat.le_refl _)
    constructor
    · intro count after ran
      obtain ⟨start, worked, ready, steps, same⟩ := runQueue_started ran
      rw [same]
      exact runSteps_depth (by rw [started_depth ready]; exact counts) steps
    · intro start front file rest before ready split ran
      rw [split, Step.depthAfter_append] at counts
      obtain ⟨depth, entered, later⟩ := Option.bind_eq_some_iff.mp counts
      rw [runSteps_depth (by rw [started_depth ready]; exact entered) ran]
      -- at depth zero the count would have stopped at this mark
      rcases Nat.eq_zero_or_pos depth with zero | positive
      · rw [zero] at later
        cases later
      · exact positive

/-- What seeding a database comes to if its seeds are one file of commands. -/
def inlined : Except PlanError Nat × Context :=
  Context.plan {} Grammar.builtin
    (.disk ⟨".", .node (.folder (.folder "seeds"
      (.file "all.ddsl" (.text "sql \x60select 1\x60") .nil) .nil))⟩)
    none (none : Option (Database Database.Journal)) {}
    ⟨"seed", ["seed", "database"], some "database", none, [], none, "seed database", 1⟩

/-- A session in which that waits to be run. -/
def inlining : Session Database.Journal where
  context := inlined.2
  sources := { drivers := [], base := { scheme := "file", path := ".", fragment := none } }
  database := {}

theorem planned_block_nesting_inlined :
    inlined.1 = .ok 5 ∧ Step.Block true 16 inlined.2.queue.steps ∧
      (inlining.runQueue Database.Journal.database fun _ => {}).1 = .ok 5 ∧
      (inlining.runQueue Database.Journal.database fun _ => {}).2.context.depth = 0 := by
  obtain ⟨blocks, -, runs⟩ := @planned_block_nesting Database.Journal
  have planned : inlined.1 = .ok 5 := by decide +kernel
  have ran : (inlining.runQueue Database.Journal.database fun _ => {}).1 = .ok 5 := by
    decide +kernel
  have nothing : ({} : Context).queue.Planned := .empty
  have built : inlined.2.queue.Planned := .plan nothing (Prod.ext planned rfl)
  obtain ⟨steps, whole, -, block, -⟩ := blocks {} inlined.2 _ _ _ _ _ _ 5 (Prod.ext planned rfl)
  refine ⟨planned, ?_, ran, (runs _ _ inlining built).1 5 _ (Prod.ext ran rfl)⟩
  rw [whole]
  exact block

end Session

end Rollout
