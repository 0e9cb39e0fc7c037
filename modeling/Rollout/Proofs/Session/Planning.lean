import Rollout.Proofs.Database.Calls
import Rollout.Proofs.Database.Transactional
import Rollout.Proofs.Outcome
import Rollout.Proofs.Session.Run
import Rollout.Proofs.Sources

/-!
Planning is all or nothing. A text of which any command has no plan leaves the queue, and where the
session stands in a run, as they were. Otherwise the steps of its commands are added, command by
command, as each of them would be planned alone.
-/

namespace Rollout

namespace Queue

theorem append_append (queue : Queue) (first second : List Step) :
    (queue.append first).append second = queue.append (first ++ second) :=
  List.foldl_append.symm

/-- What was added is cut off again, and with it what it meant for the note on effects. -/
theorem truncate_append {queue : Queue} (faithful : queue.Faithful) (added : List Step) :
    (queue.append added).truncate queue.length = queue := by
  have kept : (queue.append added).steps.take queue.length = queue.steps := by
    rw [append_steps]
    exact List.take_left' rfl
  unfold truncate
  rw [kept]
  dsimp only
  rw [← show queue.effectful = queue.steps.any Step.hasEffects from faithful]

end Queue

namespace Session

variable {State : Type}

/-- The planner for a command in a session, on the tree at its ref. -/
def planner (world : World) (session : Session State) (tree : Tree) (ref : Option String) :
    Planner where
  grammar := Grammar.builtin
  snapshot := tree.snapshot world.workspace
  ref := ref
  autoTransaction := session.context.autoTransaction

/-- The steps that commands come to one by one, each on the tree that the session has at its ref.
Nothing is passed on but the state of the database, which is asked for its schemas. -/
inductive Plans (database : Database State) (world : World) (session : Session State) :
    List Command → State → List Step → State → Prop where
  | nil (state : State) : Plans database world session [] state [] state
  | cons {command : Command} {tree : Tree} {plan : Plan} {rest : List Command}
      {steps : List Step} {state next last : State}
      (opened : (session.sources.get world.workspace command.ref).1 = .ok tree)
      (planned : ((session.planner world tree command.ref).plan command).settle (some database)
        state = (plan, next))
      (ended : plan.outcome = .ok ()) (later : Plans database world session rest next steps last) :
      Plans database world session (command :: rest) state (plan.steps ++ steps) last

variable {database : Database State} {world : World} {first second third : Session State}

/-- Steps were added to the queue; else only the patterns that count as tried are others. The
session has the same trees. -/
structure Appends (world : World) (added : List Step) (before after : Session State) : Prop where
  context : ∃ attempted, after.context =
    { before.context with queue := before.context.queue.append added, attempted := attempted }
  trees : ∀ ref, (after.sources.get world.workspace ref).1 =
    (before.sources.get world.workspace ref).1

theorem Appends.refl (session : Session State) : Appends world [] session session :=
  ⟨⟨session.context.attempted, rfl⟩, fun _ => rfl⟩

theorem Appends.trans {early late : List Step} (start : Appends world early first second)
    (rest : Appends world late second third) : Appends world (early ++ late) first third := by
  obtain ⟨⟨tried, before⟩, trees⟩ := start
  obtain ⟨⟨attempted, after⟩, more⟩ := rest
  refine ⟨⟨attempted, ?_⟩, fun ref => (more ref).trans (trees ref)⟩
  rw [after, before]
  simp only [Queue.append_append]

/-- Only the trees of the session and its mode matter for the steps. -/
theorem Plans.of_appends {added steps : List Step} {commands : List Command} {state last : State}
    (appends : Appends world added first second)
    (plans : Plans database world second commands state steps last) :
    Plans database world first commands state steps last := by
  obtain ⟨⟨attempted, context⟩, trees⟩ := appends
  induction plans with
  | nil state => exact .nil state
  | cons opened planned ended _ ih =>
      refine .cons ((trees _).symm.trans opened) ?_ ended ih
      unfold planner at planned ⊢
      rwa [context] at planned

/-- What planning a command does: it adds the steps of a plan that came to its end, or none. -/
theorem planCommand_appends {session after : Session State} {command : Command}
    {result : Except PlanError Nat}
    (planned : session.planCommand database world command = (result, after)) :
    ∃ added, Appends world added session after ∧ ∀ count, result = .ok count →
      ∃ tree plan, (session.sources.get world.workspace command.ref).1 = .ok tree ∧
        ((session.planner world tree command.ref).plan command).settle (some database)
          session.database = (plan, after.database) ∧
        plan.outcome = .ok () ∧ added = plan.steps ∧ count = plan.steps.length := by
  unfold planCommand Session.tree at planned
  dsimp only at planned
  split at planned <;> rename_i tree opened held <;> obtain ⟨found, rfl⟩ := Prod.mk.inj held <;>
    obtain ⟨rfl, rfl⟩ := Prod.mk.inj planned
  · refine ⟨[], ⟨⟨_, rfl⟩, fun ref => Sources.get_get _ _ ref⟩, ?_⟩
    intro count ended
    cases ended
  · unfold Context.takePlan
    dsimp only
    split <;> rename_i outcome
    · refine ⟨[], ⟨⟨_, rfl⟩, fun ref => Sources.get_get _ _ ref⟩, ?_⟩
      intro count ended
      cases ended
    · refine ⟨_, ⟨⟨_, rfl⟩, fun ref => Sources.get_get _ _ ref⟩, ?_⟩
      intro count ended
      cases ended
      exact ⟨tree, _, found, rfl, outcome, rfl, rfl⟩

theorem planCommands_appends {session after : Session State} {commands : List Command}
    {result : Except PlanError Nat}
    (planned : session.planCommands database world commands = (result, after)) :
    ∃ added, Appends world added session after ∧ ∀ count, result = .ok count →
      Plans database world session commands session.database added after.database ∧
        count = added.length := by
  induction commands generalizing session result with
  | nil =>
      obtain ⟨rfl, rfl⟩ := Prod.mk.inj planned
      refine ⟨[], .refl session, ?_⟩
      intro count ended
      cases ended
      exact ⟨.nil _, rfl⟩
  | cons command rest ih =>
      unfold planCommands at planned
      split at planned <;> rename_i one
      · obtain ⟨rfl, rfl⟩ := Prod.mk.inj planned
        obtain ⟨added, appends, -⟩ := planCommand_appends one
        refine ⟨added, appends, ?_⟩
        intro count ended
        cases ended
      · obtain ⟨early, start, ends⟩ := planCommand_appends one
        obtain ⟨tree, plan, opened, settled, outcome, rfl, rfl⟩ := ends _ rfl
        obtain ⟨rfl, rfl⟩ := Prod.mk.inj planned
        obtain ⟨late, more, later⟩ := ih rfl
        refine ⟨plan.steps ++ late, start.trans more, ?_⟩
        intro count ended
        obtain ⟨queued, same, rfl⟩ := Outcome.map_eq_ok.mp ended
        obtain ⟨plans, rfl⟩ := later queued same
        exact ⟨.cons opened settled outcome (plans.of_appends start), by simp⟩

/-- A text that has no plan changes nothing in the context but the patterns that count as tried. -/
theorem plan_error {session after : Session State} {text : String} {failure : SessionError}
    (faithful : session.context.queue.Faithful)
    (planned : session.plan database world text = (.error failure, after)) :
    ∃ attempted, after.context = { session.context with attempted := attempted } := by
  unfold plan at planned
  split at planned
  · obtain ⟨-, rfl⟩ := Prod.mk.inj planned
    exact ⟨session.context.attempted, rfl⟩
  · dsimp only at planned
    split at planned <;> rename_i went
    · cases (Prod.mk.inj planned).1
    · obtain ⟨-, rfl⟩ := Prod.mk.inj planned
      obtain ⟨added, ⟨⟨attempted, context⟩, -⟩, -⟩ := planCommands_appends went
      refine ⟨attempted, ?_⟩
      -- commands before the one that failed have added their steps, which are cut off again
      simp only [withContext, Context.truncate, context, Queue.truncate_append faithful]

theorem plan_ok {session after : Session State} {text : String} {count : Nat}
    (planned : session.plan database world text = (.ok count, after)) :
    ∃ commands steps, Command.parse Grammar.builtin text = .ok commands ∧
      Plans database world session commands session.database steps after.database ∧
      Appends world steps session after ∧ count = steps.length := by
  unfold plan at planned
  split at planned
  · cases (Prod.mk.inj planned).1
  · rename_i commands parsed
    dsimp only at planned
    split at planned <;> rename_i went
    · obtain ⟨same, rfl⟩ := Prod.mk.inj planned
      obtain ⟨steps, appends, ends⟩ := planCommands_appends went
      obtain ⟨plans, length⟩ := ends _ rfl
      exact ⟨commands, steps, parsed, plans, appends, (Except.ok.inj same).symm.trans length⟩
    · cases (Prod.mk.inj planned).1

/-- A text that is planned leaves the queue and the place in a run as they were, or queues the steps
of its commands in order. The database is asked for its schemas only. -/
theorem plan_all_or_nothing (database : Database State)
    {session : Session (State × List Database.Call)}
    (reachable : session.Reachable database.recorded) (world : World) (text : String) :
    match session.plan database.recorded world text with
    | (result, after) =>
        (∃ made, after.database.2 = session.database.2 ++ made ∧
          ∀ call ∈ made, call = .schemaNames) ∧
        match result with
        | .error _ =>
            after.context.queue = session.context.queue ∧
              after.context.inTransaction = session.context.inTransaction ∧
              after.context.depth = session.context.depth
        | .ok count =>
            ∃ commands steps, Command.parse Grammar.builtin text = .ok commands ∧
              Plans database.recorded world session commands session.database steps
                after.database ∧
              after.context.queue.steps = session.context.queue.steps ++ steps ∧
              steps.length = count := by
  have follows := plan_follows database.recorded session world text
  rcases planned : session.plan database.recorded world text with ⟨failure | count, after⟩ <;>
    rw [planned] at follows <;> refine ⟨follows.reach.recorded, ?_⟩
  · obtain ⟨attempted, context⟩ := plan_error reachable.faithful planned
    rw [context]
    exact ⟨rfl, rfl, rfl⟩
  · obtain ⟨commands, steps, parsed, plans, ⟨⟨attempted, context⟩, -⟩, rfl⟩ := plan_ok planned
    refine ⟨commands, steps, parsed, plans, ?_, rfl⟩
    rw [context]
    exact Queue.append_steps _ _

/-- A session on an empty folder, in which the names of the schemas wait to be listed. -/
def listing : Session (Database.Journal × List Database.Call) where
  context := { queue := Queue.append {} [.list .schemas ["main"]] }
  sources := {
    drivers := [("file", Tree.ofLocation)]
    base := { scheme := "file", path := ".", fragment := none } }
  database := ({}, [])

theorem listing_reachable : listing.Reachable Database.Journal.database.recorded :=
  .extended [.list .schemas ["main"]] (.opened { listing with context := {} } rfl)

/-- A text whose last command has no plan. The one before it asks for the schemas. -/
def unmatched : String := "sql \x60select 1\x60; list tables\nsql missing.sql"

theorem plan_all_or_nothing_unmatched :
    ∃ after, listing.plan Database.Journal.database.recorded {} unmatched =
        (.error (.plan (.noMatch "sql missing.sql" ["missing.sql"])), after) ∧
      after.context.queue = listing.context.queue ∧
      ∃ made, after.database.2 = listing.database.2 ++ made ∧ ∀ call ∈ made, call = .schemaNames := by
  have failed : (listing.plan Database.Journal.database.recorded {} unmatched).1 =
      .error (.plan (.noMatch "sql missing.sql" ["missing.sql"])) := by decide +kernel
  have whole := plan_all_or_nothing Database.Journal.database listing_reachable {} unmatched
  rcases planned : listing.plan Database.Journal.database.recorded {} unmatched with ⟨result, after⟩
  rw [planned] at failed whole
  obtain rfl : result = _ := failed
  obtain ⟨asked, same, -⟩ := whole
  exact ⟨after, rfl, same, asked⟩

end Session

end Rollout
