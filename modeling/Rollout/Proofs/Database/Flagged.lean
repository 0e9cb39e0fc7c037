import Rollout.Proofs.Database.Calls
import Rollout.Proofs.Database.Transactional

/-!
Databases that know whether a transaction is open. What opens and closes it are the three calls for
that, if they succeed, and nothing else.
-/

namespace Rollout.Database

variable {State : Type}

/-- Calls that open or close a transaction. -/
def Call.isSwitch : Call → Bool
  | begin | commit | rollback => true
  | _ => false

theorem Call.isSwitch_of_isData {call : Call} (data : call.isData = true) :
    call.isSwitch = false := by
  cases call <;> first | rfl | cases data

/-- The flag is up after a transaction was opened and down after it was closed. Calls of other kinds
and calls that fail leave it as it is. -/
structure Flagged (database : Database State) : Prop where
  begins : ∀ {state after}, database.perform .begin state = (.ok (), after) →
    database.inTransaction after = true
  commits : ∀ {state after}, database.perform .commit state = (.ok (), after) →
    database.inTransaction after = false
  rollsBack : ∀ {state after}, database.perform .rollback state = (.ok (), after) →
    database.inTransaction after = false
  keeps : ∀ {call : Call} {state reply after}, call.isSwitch = false →
    database.perform call state = (.ok reply, after) →
      database.inTransaction after = database.inTransaction state
  fails : ∀ {call : Call} {state error after}, database.perform call state = (.error error, after) →
    database.inTransaction after = database.inTransaction state

namespace Flagged

variable {database : Database State} {first last : State}

theorem perform_keeps (flagged : database.Flagged) {call : Call} (other : call.isSwitch = false)
    (state : State) :
    database.inTransaction (database.perform call state).2 = database.inTransaction state := by
  rcases performed : database.perform call state with ⟨_ | _, after⟩
  · exact flagged.fails performed
  · exact flagged.keeps other performed

theorem reach_keeps (flagged : database.Flagged) {may : Call → Prop}
    (others : ∀ call, may call → call.isSwitch = false) (reached : database.Reach may first last) :
    database.inTransaction last = database.inTransaction first := by
  let kept (state : State) : Prop := database.inTransaction state = database.inTransaction first
  have start : kept first := rfl
  refine reached.keeps ?_ start
  intro call state made same
  exact (flagged.perform_keeps (others call made) state).trans same

/-- Whichever calls fail, the flag goes by those that succeed. -/
theorem faulty (flagged : database.Flagged) (faults : Nat → Option DatabaseError) :
    (database.faulty faults).Flagged := by
  have made {call : Call} {state after : State × Nat} {reply : call.Reply}
      (performed : (database.faulty faults).perform call state = (.ok reply, after)) :
      ∃ next, database.perform call state.1 = (.ok reply, next) ∧ after.1 = next := by
    rcases faulty_cases call state with ⟨error, failed⟩ | same
    · rw [failed] at performed
      cases performed
    · rw [same] at performed
      obtain ⟨answered, rfl⟩ := Prod.mk.inj performed
      exact ⟨_, Prod.ext answered rfl, rfl⟩
  constructor
  · intro state after performed
    obtain ⟨next, called, same⟩ := made performed
    exact (congrArg database.inTransaction same).trans (flagged.begins called)
  · intro state after performed
    obtain ⟨next, called, same⟩ := made performed
    exact (congrArg database.inTransaction same).trans (flagged.commits called)
  · intro state after performed
    obtain ⟨next, called, same⟩ := made performed
    exact (congrArg database.inTransaction same).trans (flagged.rollsBack called)
  · intro call state reply after other performed
    obtain ⟨next, called, same⟩ := made performed
    exact (congrArg database.inTransaction same).trans (flagged.keeps other called)
  · intro call state error after performed
    rcases faulty_cases call state with ⟨fault, failed⟩ | same
    · rw [failed] at performed
      obtain ⟨-, rfl⟩ := Prod.mk.inj performed
      rfl
    · rw [same] at performed
      obtain ⟨answered, rfl⟩ := Prod.mk.inj performed
      exact flagged.fails (Prod.ext answered rfl)

end Flagged

theorem Journal.flagged : Journal.database.Flagged where
  begins performed := by
    rw [perform_ok performed]
    rfl
  commits performed := by
    rw [perform_ok performed]
    rfl
  rollsBack performed := by
    rw [perform_ok performed]
    rfl
  keeps {call} _ _ _ other performed := by
    rw [perform_ok performed]
    cases call <;> first | rfl | cases other
  fails performed := by
    rw [perform_error performed]
    rfl

end Rollout.Database
