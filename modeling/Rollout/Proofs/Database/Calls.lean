import Rollout.Database

/-!
Databases from outside. All that can happen to the state of a database is a sequence of calls;
whatever every call keeps, the sequence keeps. A call that fails changes nothing in databases that
fail now and then.
-/

namespace Rollout.Database

variable {State : Type}

deriving instance DecidableEq for Except

/-- Calls that read or write data, as opposed to those that manage the lock, the transaction or
the connection. -/
def Call.isData : Call → Bool
  | exec _ | loadCsv _ _ _ _ | schemaNames | foreignKeys | schemaItems _ _ | currentUser
  | recordAudit _ => true
  | lock | unlock | begin | commit | rollback | close => false

/-- Calls that a batch of steps is made of; the others are about the lock and the connection. -/
def Call.inBatch : Call → Bool
  | lock | unlock | close => false
  | _ => true

theorem Call.inBatch_of_isData {call : Call} (data : call.isData = true) : call.inBatch = true := by
  cases call <;> first | rfl | cases data

/-- Calls that a run can make. Only the end of a session closes the connection. -/
def Call.inRun : Call → Bool
  | close => false
  | _ => true

theorem Call.inRun_of_inBatch {call : Call} (batch : call.inBatch = true) : call.inRun = true := by
  cases call <;> first | rfl | cases batch

/-- The second state is reached from the first by calls that may be made. -/
inductive Reach (database : Database State) (may : Call → Prop) : State → State → Prop where
  | refl (state : State) : Reach database may state state
  | next {state last : State} (call : Call) (allowed : may call)
      (rest : Reach database may (database.perform call state).2 last) :
      Reach database may state last

namespace Reach

variable {database : Database State} {may more : Call → Prop} {first second third : State}

theorem single (call : Call) (allowed : may call) :
    database.Reach may first (database.perform call first).2 :=
  .next call allowed (.refl _)

theorem trans (start : database.Reach may first second) (rest : database.Reach may second third) :
    database.Reach may first third := by
  induction start with
  | refl => exact rest
  | next call allowed _ ih => exact .next call allowed (ih rest)

theorem mono (wider : ∀ call, may call → more call) (reached : database.Reach may first second) :
    database.Reach more first second := by
  induction reached with
  | refl => exact .refl _
  | next call allowed _ ih => exact .next call (wider call allowed) ih

theorem keeps {kept : State → Prop}
    (each : ∀ call state, may call → kept state → kept (database.perform call state).2)
    (reached : database.Reach may first second) (start : kept first) : kept second := by
  induction reached with
  | refl => exact start
  | next call allowed _ ih => exact ih (each call _ allowed start)

end Reach

/-- After calls that may be made, one of them fails so. -/
def Fails (database : Database State) (may : Call → Prop) (first : State)
    (error : DatabaseError) : Prop :=
  ∃ call state, may call ∧ database.Reach may first state ∧
    (database.perform call state).1 = .error error

namespace Fails

variable {database : Database State} {may more : Call → Prop} {first second : State}
  {error : DatabaseError}

theorem single {call : Call} (allowed : may call)
    (failed : (database.perform call first).1 = .error error) : database.Fails may first error :=
  ⟨call, first, allowed, .refl _, failed⟩

theorem after (reached : database.Reach may first second)
    (fails : database.Fails may second error) : database.Fails may first error := by
  obtain ⟨call, state, allowed, later, failed⟩ := fails
  exact ⟨call, state, allowed, reached.trans later, failed⟩

theorem mono (wider : ∀ call, may call → more call) (fails : database.Fails may first error) :
    database.Fails more first error := by
  obtain ⟨call, state, allowed, later, failed⟩ := fails
  exact ⟨call, state, wider call allowed, later.mono wider, failed⟩

end Fails

/-- The same database, but a call fails if there is an error for its number, counted from 0. -/
def faulty (faults : Nat → Option DatabaseError) (database : Database State) :
    Database (State × Nat) where
  perform call state :=
    match faults state.2 with
    | some error => (.error error, state.1, state.2 + 1)
    | none =>
        let (answer, after) := database.perform call state.1
        (answer, after, state.2 + 1)
  inTransaction state := database.inTransaction state.1

variable {database : Database State} {faults : Nat → Option DatabaseError}

theorem faulty_cases (call : Call) (state : State × Nat) :
    (∃ error, (database.faulty faults).perform call state =
        (.error error, state.1, state.2 + 1)) ∨
      (database.faulty faults).perform call state =
        ((database.perform call state.1).1, (database.perform call state.1).2, state.2 + 1) := by
  simp only [faulty]
  split
  · exact .inl ⟨_, rfl⟩
  · exact .inr rfl

theorem faulty_ok {call : Call} {state : State × Nat} {reply : call.Reply}
    (answered : ((database.faulty faults).perform call state).1 = .ok reply) :
    ((database.faulty faults).perform call state).2.1 = (database.perform call state.1).2 := by
  rcases faulty_cases call state with ⟨error, failed⟩ | same
  · rw [failed] at answered
    cases answered
  · rw [same]

/-- The property holds if all calls so far are of a kind. -/
def IfAll (kind : Call → Prop) (holds : State → Prop) (state : State × List Call) : Prop :=
  (∀ made ∈ state.2, kind made) → holds state.1

theorem recorded_listed {call : Call} {answer : Except DatabaseError call.Reply}
    {state after : State × List Call}
    (performed : database.recorded.perform call state = (answer, after)) :
    after.2 = state.2 ++ [call] := by
  obtain ⟨-, rfl⟩ := Prod.mk.inj performed
  rfl

/-- What holds if all calls are of a kind is kept by a call that keeps it if it is of that kind. -/
theorem recorded_keeps {kind : Call → Prop} {before after : State → Prop} {call : Call}
    {state : State × List Call}
    (each : kind call → before state.1 → after (database.perform call state.1).2)
    (start : IfAll kind before state) :
    IfAll kind after (database.recorded.perform call state).2 := by
  intro all
  rw [recorded_listed (Prod.eta _).symm] at all
  exact each (all call (by simp)) (start fun made member => all made (by simp [member]))

/-- What a sequence of calls leaves written down. -/
theorem Reach.recorded {may : Call → Prop} {first second : State × List Call}
    (reached : database.recorded.Reach may first second) :
    ∃ made, second.2 = first.2 ++ made ∧ ∀ call ∈ made, may call := by
  induction reached with
  | refl state => exact ⟨[], by simp, nofun⟩
  | @next state last call allowed _ ih =>
      obtain ⟨made, whole, all⟩ := ih
      refine ⟨call :: made, ?_, List.forall_mem_cons.mpr ⟨allowed, all⟩⟩
      rw [whole, recorded_listed (Prod.eta _).symm]
      simp

end Rollout.Database
