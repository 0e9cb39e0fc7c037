import Mathlib.Data.List.Induction
import Rollout.Proofs.Plan.Refs
import Rollout.Proofs.Session.Failures
import Rollout.Proofs.Session.Requests

/-!
Revisions. Whatever is planned and run, a file is read from the very tree on which the command was
planned that its step comes from.
-/

namespace Rollout.Session

variable {State : Type}

/-- Planning the text plans the command on the tree, and the step is one of those it comes to. -/
structure Compiles (database : Database State) (world : World) (text : String) (command : Command)
    (tree : Tree) (step : Step) (session : Session State) : Prop where
  parsed : ∃ commands, Command.parse Grammar.builtin text = .ok commands ∧ command ∈ commands
  opened : (session.sources.get world.workspace command.ref).1 = .ok tree
  planned : ∃ state, step ∈ (((session.planner world tree command.ref).plan command).settle
    (some database) state).1.steps

section Plans

variable {database : Database State} {world : World} {session after : Session State}

theorem Compiles.ref {text : String} {command : Command} {tree : Tree} {step : Step}
    (compiles : session.Compiles database world text command tree step) {file : FileRef}
    (about : step.file? = some file) : file.ref = command.ref := by
  obtain ⟨state, member⟩ := compiles.planned
  exact Planner.plan_refers member file about

theorem Plans.compiles {commands : List Command} {state last : State} {steps : List Step}
    (plans : Plans database world session commands state steps last) {step : Step}
    (member : step ∈ steps) :
    ∃ command ∈ commands, ∃ tree,
      (session.sources.get world.workspace command.ref).1 = .ok tree ∧
      ∃ state, step ∈ (((session.planner world tree command.ref).plan command).settle
        (some database) state).1.steps := by
  induction plans with
  | nil => cases member
  | @cons command tree plan rest later state next last opened planned _ _ ih =>
      rcases List.mem_append.mp member with here | deeper
      · refine ⟨command, List.mem_cons_self, tree, opened, state, ?_⟩
        rwa [planned]
      · obtain ⟨other, among, found⟩ := ih deeper
        exact ⟨other, List.mem_cons_of_mem _ among, found⟩

/-- If all commands have plans, the trees of all of them were asked for. -/
theorem planRequests_ok {commands : List Command} {count : Nat}
    (planned : session.planCommands database world commands = (.ok count, after)) :
    session.planRequests database world commands =
      (commands.map Command.ref).map fun ref => (world.workspace, ref) := by
  induction commands generalizing session count with
  | nil => rfl
  | cons command rest ih =>
      rw [planCommands] at planned
      rw [planRequests]
      rcases one : session.planCommand database world command with ⟨failure | first, next⟩ <;>
        rw [one] at planned
      · cases (Prod.mk.inj planned).1
      · obtain ⟨more, same⟩ := Prod.mk.inj planned
        obtain ⟨queued, ended, -⟩ := Outcome.map_eq_ok.mp more
        rw [List.map_cons, List.map_cons, ← ih (Prod.ext ended same)]

/-- A text that is planned adds steps, each from the tree of its command, which is open then. -/
theorem plan_compiles {text : String} {count : Nat}
    (planned : session.plan database world text = (.ok count, after)) :
    ∃ added, after.context.queue.steps = session.context.queue.steps ++ added ∧
      ∀ step ∈ added, ∃ command tree, session.Compiles database world text command tree step ∧
        after.sources.opened? command.ref = some tree := by
  obtain ⟨commands, added, parsed, plans, appends, -⟩ := plan_ok planned
  obtain ⟨⟨attempted, context⟩, -⟩ := appends
  refine ⟨added, by rw [context]; exact Queue.append_steps _ _, ?_⟩
  intro step member
  obtain ⟨command, among, tree, opened, gives⟩ := plans.compiles member
  refine ⟨command, tree, ⟨⟨commands, parsed, among⟩, opened, gives⟩, ?_⟩
  unfold plan at planned
  rw [parsed] at planned
  dsimp only at planned
  split at planned <;> rename_i went
  · obtain ⟨-, rfl⟩ := Prod.mk.inj planned
    have sources := planCommands_sources database world session commands
    rw [went, planRequests_ok went] at sources
    rw [show _ = _ from sources]
    exact Sources.askAll_asked (List.mem_map_of_mem among) opened
  · cases (Prod.mk.inj planned).1

end Plans

section Origins

variable (database : Database State) {session : Session State}
  (nothing : session.context.queue = {})

/-- One of the uses planned the command that the step comes from, and after all of them its tree is
still open. -/
def Originates (session : Session State) (uses : List Use) (step : Step) : Prop :=
  ∃ earlier world text later command tree, uses = earlier ++ .plan world text :: later ∧
    (session.useAll database earlier).Compiles database world text command tree step ∧
    (session.useAll database uses).sources.opened? command.ref = some tree

theorem useAll_last (before : List Use) (use : Use) :
    session.useAll database (before ++ [use]) =
      (session.useAll database before).use database use :=
  useAll_append database session _ _

/-- Trees stay open. -/
theorem Originates.later {uses : List Use} {step : Step}
    (originates : session.Originates database uses step) (use : Use) :
    session.Originates database (uses ++ [use]) step := by
  obtain ⟨earlier, world, text, later, command, tree, rfl, compiles, held⟩ := originates
  refine ⟨earlier, world, text, later ++ [use], command, tree, by simp, compiles, ?_⟩
  rw [useAll_last, use_sources]
  exact Sources.askAll_held held _

include nothing

theorem useAll_reachable (uses : List Use) :
    (session.useAll database uses).Reachable database := by
  refine useAll_keeps database session (Reachable database) ?_ (.opened session nothing) uses
  intro current use reachable
  cases use with
  | plan world text => exact .planned world text reachable
  | execute surroundings => exact .executed surroundings reachable

/-- Whatever waits comes from a command that was planned on a tree that is still open. -/
theorem queued_origin {uses : List Use} {step : Step}
    (waits : step ∈ (session.useAll database uses).context.queue.steps) :
    session.Originates database uses step := by
  induction uses using List.reverseRecOn with
  | nil =>
      have empty : step ∈ session.context.queue.steps := waits
      rw [nothing] at empty
      cases empty
  | append_singleton before use ih =>
      rw [useAll_last] at waits
      cases use with
      | execute surroundings =>
          rw [Session.use, execute_queue] at waits
          cases waits
      | plan world text =>
          rcases planned : (session.useAll database before).plan database world text with
            ⟨failure | count, after⟩ <;> rw [Session.use, planned] at waits <;>
            dsimp only at waits
          · obtain ⟨attempted, context⟩ :=
              plan_error (useAll_reachable database nothing before).faithful planned
            rw [context] at waits
            exact (ih waits).later database _
          · obtain ⟨added, whole, origins⟩ := plan_compiles planned
            rw [whole] at waits
            rcases List.mem_append.mp waits with waited | new
            · exact (ih waited).later database _
            · obtain ⟨command, tree, compiles, held⟩ := origins step new
              refine ⟨before, world, text, [], command, tree, rfl, compiles, ?_⟩
              rw [useAll_last, Session.use, planned]
              exact held

end Origins

section Runs

variable {database : Database State} {surroundings : Surroundings} {session : Session State}

theorem Stage.held {number : Nat} {stage : Session State}
    (reached : session.Stage database surroundings number stage) {ref : Option String} {tree : Tree}
    (held : session.sources.opened? ref = some tree) : stage.sources.opened? ref = some tree := by
  obtain ⟨start, ⟨locked, secured, ready⟩, before⟩ := reached
  have took := secured_sources database session
  have started := started_sources database locked
  have ran := runSteps_sources database start surroundings 0
    (session.context.queue.steps.take number)
  rw [secured] at took
  rw [ready] at started
  rw [before] at ran
  rw [show stage.sources = _ from ran]
  rw [← took, ← started] at held
  exact Sources.askAll_held held _

/-- A run fails for the registry only at a step about a file, the tree of which does not open. -/
theorem execute_registry {error : RegistryError}
    (failed : (session.execute database surroundings).1 = .error (.run (.registry error))) :
    ∃ number stage step file, session.Stage database surroundings number stage ∧
      session.context.queue.steps[number]? = some step ∧ step.file? = some file ∧
      (stage.sources.get (surroundings number).workspace file.ref).1 = .error error := by
  cases execute_error failed with
  | step reached within cause =>
      cases cause with
      | registry about refused => exact ⟨_, _, _, _, reached, within, about, refused⟩

end Runs

/-- Each file that a step in the queue is about is recorded at the ref of the command that the step
comes from. Whenever a run comes to a step, the tree at that ref is the one the command was planned
on, so no run fails for the registry. However often a session is used, it opens the base location
at most once for a ref, and a tree that cannot be opened leaves the others as they were. -/
theorem files_keep_their_tree (database : Database State) (session : Session State)
    (nothing : session.context.queue = {}) (uses : List Use) :
    let current := session.useAll database uses
    let openings := session.sources.openings (session.allRequests database uses)
    (∀ step ∈ current.context.queue.steps, ∀ file, step.file? = some file →
      ∃ earlier world text later command tree, uses = earlier ++ .plan world text :: later ∧
        (session.useAll database earlier).Compiles database world text command tree step ∧
        file.ref = command.ref ∧
        ∀ surroundings number stage, current.Stage database surroundings number stage →
          ∀ workspace, stage.sources.get workspace file.ref = (.ok tree, stage.sources)) ∧
    (∀ surroundings error,
      (current.execute database surroundings).1 ≠ .error (.run (.registry error))) ∧
    current.sources = session.sources.askAll (session.allRequests database uses) ∧
    openings.Nodup ∧ (∀ key ∈ openings, session.sources.trees.lookup key = none) ∧
    ∀ workspace ref error, (current.sources.get workspace ref).1 = .error error →
      (current.sources.get workspace ref).2 = current.sources := by
  refine ⟨?_, ?_, useAll_sources database session uses, Sources.openings_nodup _, ?_, ?_⟩
  · intro step waits file about
    obtain ⟨earlier, world, text, later, command, tree, whole, compiles, held⟩ :=
      queued_origin database nothing waits
    refine ⟨earlier, world, text, later, command, tree, whole, compiles, compiles.ref about, ?_⟩
    intro surroundings number stage reached workspace
    rw [compiles.ref about]
    exact Sources.get_held (reached.held held) workspace
  · intro surroundings error failed
    obtain ⟨number, stage, step, file, reached, within, about, refused⟩ := execute_registry failed
    obtain ⟨_, _, _, _, command, tree, -, compiles, held⟩ :=
      queued_origin database nothing (List.mem_of_getElem? within)
    rw [compiles.ref about, Sources.get_held (reached.held held)] at refused
    cases refused
  · intro key member
    cases known : session.sources.trees.lookup key with
    | none => rfl
    | some tree => exact (Sources.openings_fresh known _ member).elim
  · intro workspace ref error failed
    exact Sources.get_error failed

/-- A folder with a script that is another one on disk than at a tag. -/
def tagged : World where
  workspace := {
    disk := .file "a.sql" (.text "select 2") .nil
    commits := [("v1", .file "a.sql" (.text "select 1") .nil)] }

/-- A new session on it. -/
def untouched : Session Database.Journal where
  context := {}
  sources := {
    drivers := [("file", Tree.ofLocation)]
    base := { scheme := "file", path := ".", fragment := none } }
  database := {}

/-- The script is planned as it is at a tag, at one that does not exist, and as it is on disk. -/
def planning : List Use :=
  [.plan tagged "sql a.sql #v1", .plan tagged "sql a.sql #v2", .plan tagged "sql a.sql"]

theorem files_keep_their_tree_tagged :
    let current := untouched.useAll Database.Journal.database planning
    (.execFile ⟨"a.sql", some "v1"⟩ ∈ current.context.queue.steps ∧
      ∃ tree, ∀ surroundings number stage,
        current.Stage Database.Journal.database surroundings number stage →
          ∀ workspace, stage.sources.get workspace (some "v1") = (.ok tree, stage.sources)) ∧
    untouched.sources.openings (untouched.allRequests Database.Journal.database planning) =
      [some "v1", none] := by
  have waits : .execFile ⟨"a.sql", some "v1"⟩ ∈
      (untouched.useAll Database.Journal.database planning).context.queue.steps := by
    decide +kernel
  obtain ⟨origins, -⟩ := files_keep_their_tree Database.Journal.database untouched rfl planning
  obtain ⟨_, _, _, _, _, tree, -, -, -, held⟩ := origins _ waits _ rfl
  exact ⟨⟨waits, tree, held⟩, by decide +kernel⟩

end Rollout.Session
