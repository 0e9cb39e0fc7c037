import Rollout.Proofs.Database.Transactional
import Rollout.Proofs.Plan.Basic
import Rollout.Proofs.Queue
import Rollout.Proofs.Sources
import Rollout.Session.Plan

/-!
Steps that were planned, read back. Planning lists directories and running resolves paths; the two
agree on every file but one whose path starts at the root, or one that a commit lists under an
escaped name that was given as it is listed.
-/

namespace Rollout.Session

variable {State : Type}

/-- The file of the step was found in the tree at its ref. -/
def HasFound (world : World) (sources : Sources) (step : Step) : Prop :=
  ∀ file, step.file? = some file →
    ∃ tree, (sources.get world.workspace file.ref).1 = .ok tree ∧
      (tree.snapshot world.workspace).Found file.path

/-- Steps were added, for files that were found, and the trees at all refs are the same. -/
structure Grows (world : World) (before after : Session State) : Prop where
  trees : ∀ ref, (after.sources.get world.workspace ref).1 =
    (before.sources.get world.workspace ref).1
  steps : ∃ added, after.context.queue.steps = before.context.queue.steps ++ added ∧
    ∀ step ∈ added, HasFound world before.sources step

/-- Whatever tree the session has or can open, its folders are as those of source trees are. -/
def Orderly (world : World) (session : Session State) : Prop :=
  ∀ ref tree, (session.sources.get world.workspace ref).1 = .ok tree →
    (tree.snapshot world.workspace).Orderly

variable {world : World} {first second third : Session State}

theorem Grows.refl (session : Session State) : Grows world session session :=
  ⟨fun _ => rfl, [], by simp, nofun⟩

theorem Grows.trans (start : Grows world first second) (rest : Grows world second third) :
    Grows world first third := by
  obtain ⟨trees, early, before, found⟩ := start
  obtain ⟨later, late, after, more⟩ := rest
  refine ⟨fun ref => (later ref).trans (trees ref), early ++ late, ?_, fun step member => ?_⟩
  · rw [after, before, List.append_assoc]
  · rcases List.mem_append.mp member with here | there
    · exact found step here
    · intro file same
      obtain ⟨tree, held, inside⟩ := more step there file same
      exact ⟨tree, (trees file.ref).symm.trans held, inside⟩

theorem Grows.orderly (grows : Grows world first second) (orderly : first.Orderly world) :
    second.Orderly world :=
  fun ref tree held => orderly ref tree ((grows.trees ref).symm.trans held)

theorem takePlan_steps {context after : Context} {plan : Plan} {count : Nat}
    (taken : context.takePlan plan = (.ok count, after)) :
    after.queue.steps = context.queue.steps ++ plan.steps := by
  unfold Context.takePlan at taken
  dsimp only at taken
  split at taken
  · cases taken
  · cases taken
    exact Queue.append_steps _ _

theorem planCommand_grows {database : Database State} {session after : Session State}
    {command : Command} {count : Nat} (orderly : session.Orderly world)
    (understood : command.Understood)
    (planned : session.planCommand database world command = (.ok count, after)) :
    Grows world session after := by
  unfold planCommand Session.tree at planned
  dsimp only at planned
  split at planned
  · cases planned
  · rename_i tree opened held
    -- the tree that was planned from is the one that the sources go on to hold for the ref
    obtain ⟨found, rfl⟩ := Prod.mk.inj held
    obtain ⟨taken, rfl⟩ := Prod.mk.inj planned
    refine ⟨fun ref => Sources.get_get _ _ ref, _, takePlan_steps (Prod.ext taken rfl), ?_⟩
    intro step member file same
    obtain ⟨ref, inside⟩ := Planner.plan_records rfl (orderly _ tree found) understood member same
    refine ⟨tree, ?_, inside⟩
    rw [ref]
    exact found

theorem planCommands_grows {database : Database State} {session after : Session State}
    {commands : List Command} {count : Nat} (orderly : session.Orderly world)
    (understood : ∀ command ∈ commands, command.Understood)
    (planned : session.planCommands database world commands = (.ok count, after)) :
    Grows world session after := by
  induction commands generalizing session count with
  | nil =>
      cases planned
      exact .refl _
  | cons command rest ih =>
      obtain ⟨here, later⟩ := List.forall_mem_cons.mp understood
      unfold planCommands at planned
      split at planned
      · cases planned
      · rename_i steps next one
        have grown := planCommand_grows orderly here one
        cases more : planCommands database world rest next with
        | mk result last =>
            rw [more] at planned
            cases result with
            | error fault => cases planned
            | ok queued =>
                cases planned
                exact grown.trans (ih (grown.orderly orderly) later more)

/-- A new session on the files in the working directory. -/
def onDisk : Session Database.Journal where
  context := {}
  sources := {
    drivers := [("file", Tree.ofLocation)]
    base := { scheme := "file", path := ".", fragment := none } }
  database := {}

/-- A file of commands among the seeds, which runs a script. -/
def seeded : World where
  workspace := {
    disk := .file "other.sql" (.text "select 1")
      (.folder "seeds" (.file "all.ddsl" (.text "sql ./other.sql") .nil) .nil) }

/-- A script in the top folder. -/
def scripted : World where
  workspace := { disk := .file "x.sql" (.text "select 1") .nil }

/-- A script in the top folder of a commit, under a name that is listed with an escape. -/
def committed : World where
  workspace := { commits := [("main", .file "a\"b.sql" (.text "select 1") .nil)] }

/-- A name that is given as a commit lists it is found and then looked for in vain. -/
theorem plan_listed_not_readable :
    let planned := onDisk.plan Database.Journal.database committed "sql \"a\\\"b.sql\" #main"
    planned.1 = .ok 2 ∧
      .execFile ⟨"\"a\\\"b.sql\"", some "main"⟩ ∈ planned.2.context.queue.steps ∧
      ∃ tree, (planned.2.sources.get committed.workspace (some "main")).1 = .ok tree ∧
        ¬ (tree.snapshot committed.workspace).Readable "\"a\\\"b.sql\"" := by
  refine ⟨by decide +kernel, by decide +kernel,
    ⟨onDisk.sources.base.withRef (some "main"), some "main"⟩, by decide +kernel, ?_⟩
  intro readable
  have missing := readable.read (.notFound "\"a\\\"b.sql\"#main") (by decide +kernel)
  cases missing

end Rollout.Session
