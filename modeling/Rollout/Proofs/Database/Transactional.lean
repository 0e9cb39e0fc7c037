import Rollout.Proofs.Database.Calls

/-!
Databases with transactions. Nothing is known of the states but what they contain and what their
open transaction would restore; which calls fail, and when, is left to the database.
-/

namespace Rollout.Database

variable {State Contents : Type}

/-- Opening a transaction saves the contents, committing keeps them and rolling back restores what
was saved. Calls on data leave the transaction alone, and calls that fail leave everything. -/
structure Transactional (database : Database State) (contents saved : State → Contents) : Prop where
  begins : ∀ {state after}, database.perform .begin state = (.ok (), after) →
    contents after = contents state ∧ saved after = contents state ∧
      database.inTransaction after = true
  commits : ∀ {state after}, database.perform .commit state = (.ok (), after) →
    contents after = contents state ∧ database.inTransaction after = false
  rollsBack : ∀ {state after}, database.perform .rollback state = (.ok (), after) →
    contents after = saved state ∧ database.inTransaction after = false
  keeps : ∀ {call : Call} {state reply after}, call.isData = true →
    database.perform call state = (.ok reply, after) →
      saved after = saved state ∧ database.inTransaction after = database.inTransaction state
  fails : ∀ {call : Call} {state error after}, database.perform call state = (.error error, after) →
    contents after = contents state ∧ saved after = saved state ∧
      database.inTransaction after = database.inTransaction state

namespace Transactional

variable {database : Database State} {contents saved : State → Contents} {first last : State}

theorem perform_keeps (transactional : database.Transactional contents saved) (call : Call)
    (state : State) (data : call.isData = true) :
    saved (database.perform call state).2 = saved state ∧
      database.inTransaction (database.perform call state).2 = database.inTransaction state := by
  rcases performed : database.perform call state with ⟨_ | _, after⟩
  · exact (transactional.fails performed).2
  · exact transactional.keeps data performed

theorem reach_keeps (transactional : database.Transactional contents saved)
    (reached : database.Reach (·.isData = true) first last) :
    saved last = saved first ∧ database.inTransaction last = database.inTransaction first := by
  let kept (state : State) : Prop :=
    saved state = saved first ∧ database.inTransaction state = database.inTransaction first
  have start : kept first := ⟨rfl, rfl⟩
  refine reached.keeps ?_ start
  intro call state data kept
  have same := transactional.perform_keeps call state data
  exact ⟨same.1.trans kept.1, same.2.trans kept.2⟩

end Transactional

/-- The state after a call, unless the call fails. -/
def succeed (database : Database State) (call : Call) (state : State) : Option State :=
  match database.perform call state with
  | (.ok _, after) => some after
  | (.error _, _) => none

/-- The state after calls in order, unless one of them fails. -/
def succeedEach (database : Database State) : List Call → State → Option State
  | [], state => some state
  | call :: rest, state => (database.succeed call state).bind (database.succeedEach rest)

/-- A database that keeps the calls that write as its contents. It fails as it is told to, but
for rolling back. -/
structure Journal where
  contents : List Call := []
  saved : List Call := []
  isOpen : Bool := false
  /-- Which of the calls to come fail; none after these. -/
  failures : List Bool := []
deriving Repr

namespace Journal

/-- What a call gives in a journal, which has no data to show. -/
def reply : (call : Call) → call.Reply
  | .loadCsv _ _ _ _ => 0
  | .schemaNames | .foreignKeys | .schemaItems _ _ => []
  | .currentUser => none
  | .lock | .unlock | .begin | .commit | .rollback | .exec _ | .recordAudit _ | .close => ()

def write (call : Call) (journal : Journal) : Journal :=
  { journal with contents := journal.contents ++ [call] }

/-- What a call does that is not told to fail. -/
def effect (call : Call) (journal : Journal) : Journal :=
  match call with
  | .begin => { journal with saved := journal.contents, isOpen := true }
  | .commit => { journal with isOpen := false }
  | .rollback => { journal with contents := journal.saved, isOpen := false }
  | .exec _ | .loadCsv _ _ _ _ | .recordAudit _ => journal.write call
  | _ => journal

def perform (call : Call) (journal : Journal) : Except DatabaseError call.Reply × Journal :=
  let next := { journal with failures := journal.failures.tail }
  if call ≠ .rollback ∧ journal.failures.headD false then (.error (.driver "refused"), next)
  else (.ok (reply call), effect call next)

def database : Database Journal where
  perform := perform
  inTransaction := (·.isOpen)

theorem perform_ok {call : Call} {reply : call.Reply} {journal after : Journal}
    (performed : database.perform call journal = (.ok reply, after)) :
    after = effect call { journal with failures := journal.failures.tail } := by
  simp only [database, perform] at performed
  split at performed <;> obtain ⟨answer, rfl⟩ := Prod.mk.inj performed
  · cases answer
  · rfl

theorem perform_error {call : Call} {error : DatabaseError} {journal after : Journal}
    (performed : database.perform call journal = (.error error, after)) :
    after = { journal with failures := journal.failures.tail } := by
  simp only [database, perform] at performed
  split at performed <;> obtain ⟨answer, rfl⟩ := Prod.mk.inj performed
  · rfl
  · cases answer

theorem transactional : database.Transactional contents saved where
  begins performed := by
    rw [perform_ok performed]
    exact ⟨rfl, rfl, rfl⟩
  commits performed := by
    rw [perform_ok performed]
    exact ⟨rfl, rfl⟩
  rollsBack performed := by
    rw [perform_ok performed]
    exact ⟨rfl, rfl⟩
  keeps {call} _ _ _ data performed := by
    rw [perform_ok performed]
    cases call <;> first | exact ⟨rfl, rfl⟩ | cases data
  fails performed := by
    rw [perform_error performed]
    exact ⟨rfl, rfl, rfl⟩

theorem rollsBack (journal : Journal) :
    ∃ after, database.perform .rollback journal = (.ok (), after) := by
  simp [database, perform, reply]

end Journal

end Rollout.Database
