import Rollout.Proofs.Session.Stages
import Rollout.Proofs.Session.Uses

/-!
Which source trees a session asks for. Planning asks for the tree at the ref of every command, up to
the first that has no plan, and a run for that at the ref of every file it reads; beyond that nothing
touches the trees.
-/

namespace Rollout

/-- The ref of the file that running the step reads. -/
def Step.request? : Step → Option (Option String)
  | execFile file | shellFile file | loadCsv file _ _ => some file.ref
  | _ => none

namespace Session

open Sources (Request)

variable {State : Type}

/-- What a step asks for. In a dry run no file is read. -/
def stepRequests (world : World) (step : Step) (session : Session State) : List Request :=
  if session.context.dryRun then []
  else (step.request?.map fun ref => (world.workspace, ref)).toList

section Uses

variable (database : Database State)

def runRequests (surroundings : Surroundings) : Nat → List Step → Session State → List Request
  | _, [], _ => []
  | index, step :: rest, session =>
      session.stepRequests (surroundings index) step ++
        match session.runStep database (surroundings index) step with
        | (.error _, _) => []
        | (.ok (), after) => runRequests surroundings (index + 1) rest after

def executeRequests (surroundings : Surroundings) (session : Session State) : List Request :=
  match session.secured database with
  | (.error _, _) => []
  | (.ok (), held) =>
      match held.started database with
      | (.error _, _) => []
      | (.ok (), start) => start.runRequests database surroundings 0 session.context.queue.steps

def planRequests (world : World) : List Command → Session State → List Request
  | [], _ => []
  | command :: rest, session =>
      (world.workspace, command.ref) ::
        match session.planCommand database world command with
        | (.error _, _) => []
        | (.ok _, after) => planRequests world rest after

def requests (session : Session State) : Use → List Request
  | .plan world text =>
      match Command.parse Grammar.builtin text with
      | .error _ => []
      | .ok commands => session.planRequests database world commands
  | .execute surroundings => session.executeRequests database surroundings

/-- What a session is asked for in all of its uses. -/
def allRequests (session : Session State) : List Use → List Request
  | [] => []
  | use :: rest => session.requests database use ++ (session.use database use).allRequests rest

end Uses

section Steps

variable (database : Database State) (world : World) (session : Session State)

theorem call_sources {call : Database.Call} {answer : Except DatabaseError call.Reply}
    {after : Session State} (called : session.call database call = (answer, after)) :
    after.sources = session.sources := by
  obtain ⟨-, rfl⟩ := Prod.mk.inj called
  rfl

theorem readFile_sources (file : FileRef) : (session.readFile world file).2.sources =
    (session.sources.get world.workspace file.ref).2 := by
  unfold readFile
  split <;> rename_i opened <;> obtain ⟨-, rfl⟩ := Prod.mk.inj opened <;> rfl

theorem localFile_sources (file : FileRef) : (session.localFile world file).2.sources =
    (session.sources.get world.workspace file.ref).2 := by
  unfold localFile
  split <;> rename_i opened <;> obtain ⟨-, rfl⟩ := Prod.mk.inj opened <;> rfl

theorem logLines_sources (level : LogLevel) (text : String) :
    (session.logLines level text).sources = session.sources := by
  unfold logLines
  generalize session.indent = indent
  generalize Text.lines text = lines
  induction lines generalizing session with
  | nil => rfl
  | cons line rest ih => exact ih _

theorem executeSql_sources (origin sql : String) :
    (session.executeSql database origin sql).2.sources = session.sources := by
  unfold executeSql
  split
  · rfl
  · split <;> rename_i called <;> exact call_sources database session called

theorem runProgram_sources (program : String) (arguments : List String)
    (script : Option Content) :
    (session.runProgram world program arguments script).2.sources = session.sources := by
  unfold runProgram
  dsimp only
  split
  · rfl
  · split
    · rfl
    · split
      · exact (logLines_sources _ _ _).trans (logLines_sources session _ _)
      · exact logLines_sources session _ _

theorem listItems_sources (kind : Option ItemKind) (schemas : List String) :
    (session.listItems database kind schemas).2.sources = session.sources := by
  induction schemas generalizing session with
  | nil => rfl
  | cons schema rest ih =>
      unfold listItems
      split <;> rename_i called
      · exact call_sources database session called
      · exact (ih _).trans (call_sources database session called)

theorem list_sources (kind : ListKind) (schemas : List String) :
    (session.list database world kind schemas).2.sources = session.sources := by
  have shows : (session.listTable database kind schemas).2.sources = session.sources := by
    unfold listTable
    split
    · rfl
    · split <;> rename_i called <;> exact call_sources database session called
    · exact listItems_sources database session _ schemas
  unfold list
  split <;> rename_i found <;> rw [found] at shows
  · exact shows
  · split
    · exact shows
    · unfold write
      split <;> exact shows

theorem begin_sources : (session.begin database).2.sources = session.sources := by
  unfold Session.begin
  split
  · rfl
  · split
    · rfl
    · split <;> rename_i called <;> have same := call_sources database session called <;>
        exact same

theorem commit_sources : (session.commit database).2.sources = session.sources := by
  unfold Session.commit
  split
  · rfl
  · split
    · rfl
    · split <;> rename_i called <;> have same := call_sources database session called <;>
        exact same

theorem rollback_sources : (session.rollback database).2.sources = session.sources := by
  unfold Session.rollback
  split
  · rfl
  · split
    · rfl
    · split <;> rename_i called <;> have same := call_sources database session called <;>
        exact same

theorem abort_sources : (session.abort database).sources = session.sources := by
  have rolled := rollback_sources database session
  unfold abort
  split
  · split <;> rename_i ended <;> rw [ended] at rolled <;> exact rolled
  · rfl

variable {session}

theorem stepRequests_none {step : Step} (none : step.request? = none) :
    session.stepRequests world step = [] := by
  unfold stepRequests
  rw [none]
  exact ite_self _

/-- What is asked for in a step about a file, given how it goes outside of dry runs. -/
theorem asked_sources {step : Step} {ref : Option String} {after : Sources}
    (request : step.request? = some ref)
    (dry : session.context.dryRun = true → after = session.sources)
    (wet : ¬ session.context.dryRun = true → after = (session.sources.get world.workspace ref).2) :
    after = session.sources.askAll (session.stepRequests world step) := by
  unfold stepRequests
  by_cases mode : session.context.dryRun = true
  · rw [if_pos mode]
    exact dry mode
  · rw [if_neg mode, request]
    exact wet mode

variable (session)

theorem runCommand_sources (text : String) :
    (session.runCommand database world text).2.sources = session.sources := by
  unfold runCommand
  dsimp only
  split
  · rfl
  · split <;> rename_i noted <;> have same := call_sources database _ noted <;> exact same

theorem executeFile_sources (file : FileRef) :
    (session.executeFile database world file).2.sources =
      session.sources.askAll (session.stepRequests world (.execFile file)) := by
  apply asked_sources world rfl <;> intro mode <;> rw [executeFile]
  · rw [if_pos mode]
    rfl
  · have reads := readFile_sources world session file
    rw [if_neg mode]
    split <;> rename_i found <;> rw [found] at reads
    · exact reads
    · exact (executeSql_sources database _ _ _).trans reads

theorem runShellFile_sources (file : FileRef) :
    (session.runShellFile world file).2.sources =
      session.sources.askAll (session.stepRequests world (.shellFile file)) := by
  apply asked_sources world rfl <;> intro mode <;> rw [runShellFile]
  · rw [if_pos mode]
    rfl
  · have finds := localFile_sources world session file
    rw [if_neg mode]
    split <;> rename_i found <;> rw [found] at finds
    · exact finds
    · exact (runProgram_sources world _ _ _ _).trans finds

theorem loadCsv_sources (file : FileRef) (schema table : String) :
    (session.loadCsv database world file schema table).2.sources =
      session.sources.askAll (session.stepRequests world (.loadCsv file schema table)) := by
  apply asked_sources world rfl <;> intro mode <;> rw [loadCsv]
  · rw [if_pos mode]
    rfl
  · have finds := localFile_sources world session file
    rw [if_neg mode]
    split <;> rename_i found <;> rw [found] at finds
    · exact finds
    · split <;> rename_i called <;> exact (call_sources database _ called).trans finds

theorem runStep_sources (step : Step) :
    (session.runStep database world step).2.sources =
      session.sources.askAll (session.stepRequests world step) := by
  -- all but the steps that read files
  have untouched (none : step.request? = none)
      (same : (session.runStep database world step).2.sources = session.sources) :
      (session.runStep database world step).2.sources =
        session.sources.askAll (session.stepRequests world step) := by
    rw [stepRequests_none world none]
    exact same
  cases step with
  | runCommand text => exact untouched rfl (runCommand_sources database world session text)
  | execFile file => exact executeFile_sources database world session file
  | execScript sql => exact untouched rfl (executeSql_sources database session _ sql)
  | shellFile file => exact runShellFile_sources world session file
  | shell program arguments =>
      exact untouched rfl (runProgram_sources world session program arguments none)
  | loadCsv file schema table => exact loadCsv_sources database world session file schema table
  | begin => exact untouched rfl (begin_sources database session)
  | commit => exact untouched rfl (commit_sources database session)
  | rollback => exact untouched rfl (rollback_sources database session)
  | enterFile file => exact untouched rfl rfl
  | leaveFile file => exact untouched rfl rfl
  | list kind schemas => exact untouched rfl (list_sources database world session kind schemas)

theorem runSteps_sources (surroundings : Surroundings) (index : Nat) (steps : List Step) :
    (session.runSteps database surroundings index steps).2.sources =
      session.sources.askAll (session.runRequests database surroundings index steps) := by
  induction steps generalizing session index with
  | nil => rfl
  | cons step rest ih =>
      have next := runStep_sources database (surroundings index) session step
      rw [runSteps, runRequests, Sources.askAll_append]
      rcases ran : session.runStep database (surroundings index) step with ⟨_ | _, after⟩ <;>
        rw [ran] at next <;> dsimp only at next ⊢ <;> rw [← next]
      · rfl
      · exact ih after (index + 1)

theorem secured_sources : (session.secured database).2.sources = session.sources := by
  unfold secured
  split <;> rfl

theorem started_sources : (session.started database).2.sources = session.sources := by
  unfold started
  dsimp only
  split
  · exact begin_sources database _
  · rfl

theorem closed_sources (wrapped : Bool) (ran : Result State Unit) :
    (closed database wrapped ran).2.sources = ran.2.sources := by
  unfold closed
  split
  · rcases ran with ⟨_ | _, worked⟩
    · exact abort_sources database worked
    · have committed := commit_sources database worked
      dsimp only
      split <;> rename_i ended <;> rw [ended] at committed
      · exact (abort_sources database _).trans committed
      · exact committed
  · rfl

theorem answered_sources (locked : Bool) (ran : Result State Nat) :
    (answered database locked ran).2.sources = ran.2.sources := by
  unfold answered
  split
  · unfold release
    dsimp only
    split <;> rename_i called <;> have same := call_sources database _ called
    · exact same
    · split <;> exact same
  · rfl

theorem execute_sources (surroundings : Surroundings) :
    (session.execute database surroundings).2.sources =
      session.sources.askAll (session.executeRequests database surroundings) := by
  have holds := secured_sources database session
  rw [execute_stages]
  unfold executeRequests
  rcases secured : session.secured database with ⟨_ | _, held⟩ <;> rw [secured] at holds
  · exact holds
  · have starts := started_sources database held
    dsimp only
    rw [answered_sources, runQueue_stages, secured_context secured, ← holds]
    rcases ready : held.started database with ⟨_ | _, start⟩ <;> rw [ready] at starts
    · exact starts
    · refine (closed_sources database _ _).trans ?_
      rw [← starts]
      exact runSteps_sources database start surroundings 0 _

theorem planCommand_sources (command : Command) :
    (session.planCommand database world command).2.sources =
      (session.sources.get world.workspace command.ref).2 := by
  unfold planCommand
  split <;> rename_i opened <;> obtain ⟨-, rfl⟩ := Prod.mk.inj opened <;> rfl

theorem planCommands_sources (commands : List Command) :
    (session.planCommands database world commands).2.sources =
      session.sources.askAll (session.planRequests database world commands) := by
  induction commands generalizing session with
  | nil => rfl
  | cons command rest ih =>
      have next := planCommand_sources database world session command
      have asked : session.sources.askAll (session.planRequests database world (command :: rest)) =
          (session.planCommand database world command).2.sources.askAll
            (match session.planCommand database world command with
              | (.error _, _) => []
              | (.ok _, after) => after.planRequests database world rest) := by
        rw [next]
        rfl
      rw [planCommands, asked]
      rcases session.planCommand database world command with ⟨_ | count, after⟩
      · rfl
      · exact ih after

/-- The trees of a session come from what it is asked for, and from nothing else. -/
theorem use_sources (use : Use) :
    (session.use database use).sources = session.sources.askAll (session.requests database use) := by
  cases use with
  | plan world text =>
      dsimp only [Session.use, requests, plan]
      cases Command.parse Grammar.builtin text with
      | error error => rfl
      | ok commands =>
          have planned := planCommands_sources database world session commands
          dsimp only
          split <;> rename_i ended <;> rw [ended] at planned <;> exact planned
  | execute surroundings => exact execute_sources database session surroundings

theorem useAll_sources (uses : List Use) :
    (session.useAll database uses).sources =
      session.sources.askAll (session.allRequests database uses) := by
  induction uses generalizing session with
  | nil => rfl
  | cons use rest ih =>
      rw [allRequests, Sources.askAll_append, ← use_sources]
      exact ih _

end Steps

end Session

end Rollout
