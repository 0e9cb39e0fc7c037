import Rollout.Proofs.Database.Conversation
import Rollout.Proofs.Session.DryRun
import Rollout.Proofs.Session.Run
import Rollout.Proofs.Session.Uses

/-!
What a session is used for, from its start until it is closed, and what it says to its database in
the course of that, whatever it is answered. Batches stand between taking the lock and giving it
back; outside of them the session asks what there is, and before it is closed it may roll back.
-/

namespace Rollout.Session

open Database (Exchange Oracle answering phaseOf)

variable {State : Type}

/-- A use of a session, or a change of its settings or of what waits in it. -/
inductive Work where
  | use (use : Use)
  | change (context : Context) (faithful : context.queue.Faithful)

def work (database : Database State) (session : Session State) : Work → Session State
  | .use use => session.use database use
  | .change context _ => session.withContext context

/-- What a new session is used for, and whether it is closed in the end. -/
structure Program where
  session : Session (List Exchange)
  isNew : session.database = []
  faithful : session.context.queue.Faithful
  works : List Work
  closes : Bool

namespace Program

/-- The session after all that it is used for. -/
def worked (program : Program) (oracle : Oracle) : Session (List Exchange) :=
  program.works.foldl (work (answering oracle)) program.session

def conversation (program : Program) (oracle : Oracle) : List Exchange :=
  let session := program.worked oracle
  if program.closes then (session.close (answering oracle)).2.database else session.database

/-- This is how the program can start, if it is answered so. -/
def CanSay (program : Program) (said : List Exchange) : Prop :=
  ∃ oracle, said <+: program.conversation oracle

end Program

section Phases

variable {oracle : Oracle} {session after : Session (List Exchange)}

/-- The session does not hold the lock by what it has said, and the note of its queue is true. -/
structure Outside (session : Session (List Exchange)) : Prop where
  phase : phaseOf session.database = some .outside
  faithful : session.context.queue.Faithful

theorem Outside.asked {may : Database.Call → Prop} (asks : ∀ call, may call → call.asks = true)
    (start : session.Outside) (follows : Follows (answering oracle) may session after) :
    after.Outside where
  phase := Database.asks_outside (follows.reach.mono asks) start.phase
  faithful := follows.faithful start.faithful

theorem call_phase {call : Database.Call} {answer : Except DatabaseError call.Reply}
    (called : session.call (answering oracle) call = (answer, after)) :
    ∃ isOpen, phaseOf after.database =
      (phaseOf session.database).bind (·.next ⟨call, answer, isOpen⟩) := by
  obtain ⟨rfl, state, -⟩ := call_parts called
  rw [← state]
  exact Database.phaseOf_perform oracle session.database call

/-- A batch with effects takes the lock first, and gives it back in the end. -/
theorem execute_locked (surroundings : Surroundings)
    (effectful : session.context.queue.effectful = true)
    (wet : session.context.dryRun = false) (start : phaseOf session.database = some .outside) :
    phaseOf (session.execute (answering oracle) surroundings).2.database = some .outside := by
  unfold execute
  simp only [effectful, wet, Bool.not_false, Bool.and_self, if_true]
  split <;> rename_i called <;> obtain ⟨isOpen, phase⟩ := call_phase called <;> rw [start] at phase
  · exact phase
  · rename_i locked
    have ran := Database.batch_inside
      (runQueue_follows (answering oracle) surroundings locked).reach phase
    rw [release_database]
    obtain ⟨still, last⟩ := Database.phaseOf_perform oracle
      (locked.runQueue (answering oracle) surroundings).2.database .unlock
    rw [last, ran]
    rfl

theorem execute_outside (surroundings : Surroundings) (start : session.Outside) :
    (session.execute (answering oracle) surroundings).2.Outside := by
  refine ⟨?_, ?_⟩
  · cases dry : session.context.dryRun with
    | true =>
        rw [execute_dry surroundings dry]
        have rehearsed : Rehearses (answering oracle) _ session
            (session.runQueue (answering oracle) surroundings).2 :=
          runQueue_rehearses surroundings dry
        refine Database.asks_outside (rehearsed.reach.mono ?_) start.phase
        rintro call ⟨step, -, asked⟩
        obtain ⟨kind, schemas, -, query⟩ := Step.mem_queries asked
        have isQuery := ListKind.queries_isQuery query
        cases call <;> first | rfl | cases isQuery
    | false =>
        cases effectful : session.context.queue.effectful with
        | true => exact execute_locked surroundings effectful dry start.phase
        | false =>
            simp only [execute, effectful, Bool.false_and, Bool.false_eq_true, if_false]
            refine (start.asked ?_ (runQueue_lists (answering oracle) surroundings session
              start.faithful effectful)).phase
            rintro call (rfl | ⟨schema, kind, rfl⟩) <;> rfl
  · rw [execute_queue]
    exact Queue.empty_faithful

theorem work_outside (start : session.Outside) (one : Work) :
    (session.work (answering oracle) one).Outside := by
  cases one with
  | change context faithful => exact ⟨start.phase, faithful⟩
  | use use =>
      cases use with
      | plan world text =>
          refine start.asked ?_ (plan_follows (answering oracle) session world text)
          rintro call rfl
          rfl
      | execute surroundings => exact execute_outside surroundings start

/-- Closing rolls back, or not, and closes, or fails before that. -/
theorem close_phase (start : phaseOf session.database = some .outside) :
    ∃ phase, phaseOf (session.close (answering oracle)).2.database = some phase := by
  unfold close
  dsimp only
  split
  · split <;> rename_i rolledBack <;> obtain ⟨isOpen, phase⟩ := call_phase rolledBack <;>
      replace phase := phase.trans (congrArg (Option.bind · _) start)
    · exact ⟨_, phase⟩
    · split <;> rename_i closed <;> obtain ⟨isOpen, last⟩ := call_phase closed <;>
        rw [phase] at last
      · exact ⟨_, last⟩
      · exact ⟨_, last⟩
  · split <;> rename_i closed <;> obtain ⟨isOpen, last⟩ := call_phase closed <;>
      rw [start] at last
    · exact ⟨_, last⟩
    · exact ⟨_, last⟩

end Phases

namespace Program

variable (program : Program)

theorem worked_outside (oracle : Oracle) : (program.worked oracle).Outside := by
  have start : program.session.Outside := by
    refine ⟨?_, program.faithful⟩
    rw [program.isNew]
    rfl
  unfold worked
  generalize program.works = works
  generalize program.session = session at start
  induction works generalizing session with
  | nil => exact start
  | cons one rest ih => exact ih _ (work_outside start one)

theorem conversation_phase (oracle : Oracle) :
    ∃ phase, phaseOf (program.conversation oracle) = some phase := by
  have outside := (program.worked_outside oracle).phase
  unfold conversation
  dsimp only
  split
  · exact close_phase outside
  · exact ⟨_, outside⟩

variable {program}

/-- Whatever a program has to say has its place in the phase that it is in. -/
theorem CanSay.next {said : List Exchange} {exchange : Exchange}
    (spoken : program.CanSay (said ++ [exchange])) :
    ∃ phase after, phaseOf said = some phase ∧ phase.next exchange = some after ∧
      phaseOf (said ++ [exchange]) = some after := by
  obtain ⟨oracle, start⟩ := spoken
  obtain ⟨last, whole⟩ := program.conversation_phase oracle
  obtain ⟨after, phased⟩ := Database.phaseOf_prefix start whole
  rw [Database.phaseOf_append] at phased
  obtain ⟨phase, before, next⟩ := Option.bind_eq_some_iff.mp phased
  refine ⟨phase, after, before, next, ?_⟩
  rw [Database.phaseOf_append, phased]

end Program

end Rollout.Session
