import Mathlib.Logic.Function.Basic
import Rollout.Proofs.Session.Programs
import Rollout.Proofs.Sqlite.Sharing

/-!
Sessions on one file, each with a connection of its own. Their calls come in any order, and any of
them may fail. The lock is held by one of them at a time, even where a transaction that one of them
has left open keeps the lock's row from view, or brings it back.
-/

namespace Rollout

namespace Sqlite.Shared

/-- The file as it is for one of the connections. -/
def view (number : Nat) (shared : Shared) : State where
  file := shared.file
  connection := (shared.connections[number]?).getD {}

theorem act_view {α : Type} (number : Nat) (action : State → α × State) (shared : Shared) :
    shared.act number action =
      ((action (shared.view number)).1,
        { file := (action (shared.view number)).2.file
          connections :=
            shared.connections.set number (action (shared.view number)).2.connection }) := rfl

theorem view_set {number : Nat} {connections : List Connection} (seat : number < connections.length)
    (state : State) :
    view number ⟨state.file, connections.set number state.connection⟩ = state := by
  simp [view, seat]

theorem view_set_other {number other : Nat} (different : other ≠ number)
    (connections : List Connection) (file : File) (connection : Connection) :
    (view other ⟨file, connections.set number connection⟩).connection =
      (view other ⟨file, connections⟩).connection := by
  simp [view, List.getElem?_set_ne different.symm]

end Sqlite.Shared

namespace Session

open Database (Exchange holding phaseOf)
open Sqlite (Shared Performs)

/-- Connections to a file, and what was said over each of them. -/
structure Meeting where
  shared : Shared
  said : Nat → List Exchange

namespace Meeting

/-- The meeting after one more exchange. -/
def after (number : Nat) (shared : Shared) (exchange : Exchange) (meeting : Meeting) : Meeting where
  shared := shared
  said := Function.update meeting.said number (meeting.said number ++ [exchange])

/-- One of the programs has one more thing to say. Its call is made on its connection, and leaves
the lock's table alone, or it fails before it is made. -/
inductive Move (programs : List Program) (meeting : Meeting) : Meeting → Prop where
  | made {number : Nat} {program : Program} {call : Database.Call}
      {answer : Except DatabaseError call.Reply} {shared : Shared}
      (who : programs[number]? = some program)
      (spared : Sqlite.sparesTable Sqlite.lockTable call = true)
      (acted : meeting.shared.act number (Sqlite.State.perform call) = (answer, shared))
      (spoken : program.CanSay
        (meeting.said number ++ [⟨call, answer, (shared.view number).inTransaction⟩])) :
      Move programs meeting
        (meeting.after number shared ⟨call, answer, (shared.view number).inTransaction⟩)
  | failed {number : Nat} {program : Program} (call : Database.Call) (error : DatabaseError)
      (who : programs[number]? = some program)
      (spoken : program.CanSay (meeting.said number ++
        [⟨call, .error error, (meeting.shared.view number).inTransaction⟩])) :
      Move programs meeting (meeting.after number meeting.shared
        ⟨call, .error error, (meeting.shared.view number).inTransaction⟩)

/-- What programs can come to from a start. -/
inductive Reached (programs : List Program) (start : Meeting) : Meeting → Prop where
  | start : Reached programs start start
  | move {meeting next : Meeting} (reached : Reached programs start meeting)
      (move : meeting.Move programs next) : Reached programs start next

/-- A connection for each program, none of which has been used, to a file without a lock. -/
structure Begins (programs : List Program) (meeting : Meeting) : Prop where
  seats : meeting.shared.connections.length = programs.length
  quiet : ∀ connection ∈ meeting.shared.connections, connection.Quiet
  readers : meeting.shared.file.readers = 0
  writer : meeting.shared.file.writer = .nobody
  lock : meeting.shared.file.contents.LockIs false
  silent : ∀ number, meeting.said number = []

/-- One connection may be in use; the others are quiet and do not hold the lock. -/
structure Owned (owner : Nat) (programs : List Program) (meeting : Meeting) : Prop where
  seats : meeting.shared.connections.length = programs.length
  standing : Sqlite.Standing (meeting.shared.view owner) (meeting.said owner)
  quiet : ∀ other, other ≠ owner → (meeting.shared.view other).connection.Quiet
  silent : ∀ other, other ≠ owner → holding (meeting.said other) = false

variable {programs : List Program} {meeting next : Meeting} {owner number : Nat}

theorem Begins.owned (begins : meeting.Begins programs) : meeting.Owned 0 programs := by
  have quiet (number : Nat) : (meeting.shared.view number).connection.Quiet := by
    unfold Shared.view
    cases found : meeting.shared.connections[number]? with
    | none => exact ⟨rfl, rfl⟩
    | some connection => exact begins.quiet connection (List.mem_of_getElem? found)
  have none : holding [] = false := rfl
  have unused : (meeting.shared.view 0).use = .none := by
    simp [Sqlite.State.use, (quiet 0).idle]
  refine ⟨begins.seats, ⟨.settled (quiet 0) ⟨?_, ?_⟩ begins.lock, ?_⟩, fun other _ => quiet other,
    fun other _ => by rw [begins.silent, none]⟩
  · rw [unused]
    exact begins.readers
  · rw [unused]
    exact begins.writer
  · rw [begins.silent, none, (quiet 0).free]

/-- A move is an exchange that has its place, after which the file and the connection are others. -/
theorem Move.performs (seats : meeting.shared.connections.length = programs.length)
    (move : meeting.Move programs next) :
    ∃ number exchange state phase last, number < meeting.shared.connections.length ∧
      Performs (meeting.shared.view number) exchange state ∧
      phaseOf (meeting.said number) = some phase ∧ phase.next exchange = some last ∧
      next = meeting.after number
        ⟨state.file, meeting.shared.connections.set number state.connection⟩ exchange := by
  cases move with
  | @made number program call answer shared who spared acted spoken =>
      obtain ⟨phase, last, phased, follows, -⟩ := spoken.next
      have seat : number < meeting.shared.connections.length := by
        rw [seats]
        exact (List.getElem?_eq_some_iff.mp who).1
      rw [Shared.act_view] at acted
      obtain ⟨rfl, rfl⟩ := Prod.mk.inj acted
      rw [Shared.view_set seat] at follows ⊢
      exact ⟨number, _, _, phase, last, seat, .made call spared, phased, follows, rfl⟩
  | @failed number program call error who spoken =>
      obtain ⟨phase, last, phased, follows, -⟩ := spoken.next
      have seat : number < meeting.shared.connections.length := by
        rw [seats]
        exact (List.getElem?_eq_some_iff.mp who).1
      have same : meeting.shared.connections.set number
          (meeting.shared.view number).connection = meeting.shared.connections := by
        simp [Shared.view, seat]
      refine ⟨number, _, _, phase, last, seat, .failed call error, phased, follows, ?_⟩
      rw [same]
      rfl

/-- A connection that is not in use any more need not be the one that may be in use. -/
theorem Owned.pass (owned : meeting.Owned owner programs)
    (unused : (meeting.shared.view owner).connection.Quiet) (number : Nat) :
    meeting.Owned number programs := by
  by_cases same : number = owner
  · rwa [same]
  · have stage : Sqlite.Stage (meeting.shared.view number) (meeting.said number) :=
      owned.standing.stage.pass unused (owned.quiet number same) (meeting.said number)
    refine ⟨owned.seats, ⟨stage, ?_⟩, fun other _ => ?_, fun other _ => ?_⟩
    · rw [owned.silent number same, (owned.quiet number same).free]
    · by_cases old : other = owner
      · rwa [old]
      · exact owned.quiet other old
    · by_cases old : other = owner
      · rw [old, owned.standing.linked, unused.free]
      · exact owned.silent other old

/-- Whoever makes a move, still one connection may be in use, and no other. -/
theorem Owned.move (owned : meeting.Owned owner programs) (move : meeting.Move programs next) :
    ∃ owner, next.Owned owner programs := by
  obtain ⟨number, exchange, state, phase, last, seat, performs, phased, follows, rfl⟩ :=
    move.performs owned.seats
  have seats : (meeting.shared.connections.set number state.connection).length =
      programs.length := by
    rw [List.length_set, owned.seats]
  -- the connection in use makes the move, or takes the part of one that is not in use any more
  have own (owned : meeting.Owned number programs) :
      (meeting.after number ⟨state.file, meeting.shared.connections.set number state.connection⟩
        exchange).Owned number programs := by
    refine ⟨seats, ?_, fun other different => ?_, fun other different => ?_⟩
    · simp only [after, Shared.view_set seat, Function.update_self]
      exact owned.standing.step performs phased follows
    · simp only [after, Shared.view_set_other different]
      exact owned.quiet other different
    · simp only [after, Function.update_of_ne different]
      exact owned.silent other different
  by_cases same : number = owner
  · subst same
    exact ⟨number, own owned⟩
  by_cases unused : (meeting.shared.view owner).connection.Quiet
  · exact ⟨number, own (owned.pass unused number)⟩
  · obtain ⟨lock, writer⟩ := owned.standing.stage.shut unused
    have quiet := owned.quiet number same
    obtain ⟨file, still, linked⟩ := Sqlite.elsewhere_step quiet
      ((owned.silent number same).trans quiet.free.symm) writer lock performs phased follows
    have different : owner ≠ number := fun alike => same alike.symm
    have untouched : state.file = meeting.shared.file := file
    refine ⟨owner, seats, ?_, fun other others => ?_, fun other others => ?_⟩
    · have view : Shared.view owner
          ⟨state.file, meeting.shared.connections.set number state.connection⟩ =
            meeting.shared.view owner := by
        rw [untouched]
        simp [Shared.view, List.getElem?_set_ne same]
      simp only [after, view, Function.update_of_ne different]
      exact owned.standing
    · by_cases mover : other = number
      · subst mover
        simp only [after, Shared.view_set seat]
        exact still
      · simp only [after, Shared.view_set_other mover]
        exact owned.quiet other others
    · by_cases mover : other = number
      · subst mover
        simp only [after, Function.update_self]
        rw [linked, still.free]
      · simp only [after, Function.update_of_ne mover]
        exact owned.silent other others

/-- A session in which a step that opens a transaction waits, and is run. -/
def opening : Program where
  session := {
    context := { autoTransaction := false, queue := Queue.append {} [.begin] }
    sources := {
      drivers := [("file", Tree.ofLocation)]
      base := { scheme := "file", path := ".", fragment := none } }
    database := [] }
  isNew := rfl
  faithful := rfl
  works := [.use (.execute fun _ => {})]
  closes := true

/-- Two new connections to a file that is empty. -/
def vacant : Meeting := ⟨{ connections := [{}, {}] }, fun _ => []⟩

theorem vacant_begins : vacant.Begins [opening, opening] where
  seats := rfl
  quiet := by
    intro connection member
    obtain rfl : connection = {} := by simpa [vacant] using member
    exact ⟨rfl, rfl⟩
  readers := rfl
  writer := rfl
  lock := .missing rfl rfl
  silent _ := rfl

def refusal : DatabaseError := .lock "database is locked by pid"

def taking : Exchange := ⟨.lock, .ok (), false⟩

def refused : Exchange := ⟨.lock, .error refusal, false⟩

theorem opening_taking : opening.CanSay [taking] := by
  refine ⟨fun _ call => (.ok (Database.Journal.reply call), false), ?_⟩
  exact ⟨[⟨.begin, .ok (), false⟩, ⟨.unlock, .ok (), false⟩, ⟨.close, .ok (), false⟩], rfl⟩

theorem opening_refused : opening.CanSay [refused] := by
  refine ⟨fun _ _ => (.error refusal, false), ?_⟩
  exact ⟨[⟨.close, .error refusal, false⟩], rfl⟩

/-- The file and the connections after the lock has been taken. -/
def taken : Shared := (vacant.shared.act 0 (Sqlite.State.perform .lock)).2

end Meeting

end Session

end Rollout
