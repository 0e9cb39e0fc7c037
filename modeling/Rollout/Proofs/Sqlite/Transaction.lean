import Rollout.Proofs.Sqlite.Statement

/-!
What the program's own statements for transactions do on a connection that has its file to itself.
-/

namespace Rollout.Sqlite

/-- The call that the statement is made for, if it manages transactions. -/
def Statement.management? : Statement → Option Database.Call
  | begin => some .begin
  | commit => some .commit
  | rollback => some .rollback
  | _ => none

namespace Parser

/-- What is read as one statement, for one of the calls, is the statement for that call. -/
theorem parsed_management (call : Database.Call) {statement : Statement}
    (kind : statement.management? = some call)
    {found : Except Fault (Option (Statement × List Token))}
    (only : found.toOption.join.map (fun found => (found.1.management?, found.2)) =
      some (some call, [])) :
    found = .ok (some (statement, [])) := by
  rcases found with _ | _ | ⟨other, rest⟩
  · cases only
  · cases only
  · obtain ⟨otherKind, rfl⟩ := Prod.mk.inj (Option.some.inj only)
    have same : other.management? = statement.management? := otherKind.trans kind.symm
    cases statement <;> cases kind <;> cases other <;> first | rfl | cases same

theorem begin_parsed : next (Token.ofText "BEGIN") = .ok (some (.begin, [])) :=
  parsed_management .begin rfl (by decide +kernel)

theorem commit_parsed : next (Token.ofText "COMMIT") = .ok (some (.commit, [])) :=
  parsed_management .commit rfl (by decide +kernel)

theorem rollback_parsed : next (Token.ofText "ROLLBACK") = .ok (some (.rollback, [])) :=
  parsed_management .rollback rfl (by decide +kernel)

end Parser

namespace State

variable {state : State}

/-- A text of one statement is executed as that statement. -/
theorem exec_single {sql : String} {statement : Statement} (isOpen : state.connection.isOpen = true)
    (parsed : Parser.next (Token.ofText sql) = .ok (some (statement, []))) :
    state.exec sql =
      ((state.execute statement).1.mapError (Fault.inText sql), (state.execute statement).2) := by
  have done (turns : Nat) (state : State) : executeAll turns [] state = (.ok (), state) := by
    cases turns <;> rfl
  simp only [exec, isOpen, Bool.not_true, Bool.false_eq_true, if_false]
  cases tokens : Token.ofText sql with
  | nil => rw [tokens] at parsed; cases parsed
  | cons token rest =>
      rw [tokens] at parsed
      simp only [List.length_cons, executeAll, parsed, done]
      rcases state.execute statement with ⟨_ | _, after⟩ <;> rfl

/-- The second state follows by the start or the end of a transaction. -/
structure Across (before after : State) : Prop where
  alone : after.Alone
  isOpen : after.connection.isOpen = before.connection.isOpen
  holdsLock : after.connection.holdsLock = before.connection.holdsLock
  inTransaction : after.inTransaction = !before.inTransaction

theorem begin_across (alone : state.Alone) (isOpen : state.connection.isOpen = true)
    (idle : state.inTransaction = false) :
    ∃ after, state.beginTransaction = (.ok (), after) ∧ Across state after ∧
      after.visible = state.visible ∧ after.file = state.file := by
  simp only [beginTransaction, idle, Bool.false_eq_true, if_false,
    exec_single isOpen Parser.begin_parsed, execute, State.begin]
  obtain ⟨file, ⟨isOpen, holdsLock, schemas, transaction⟩⟩ := state
  cases transaction with
  | none => exact ⟨_, rfl, ⟨⟨alone.readers, alone.writer⟩, rfl, rfl, rfl⟩, rfl, rfl⟩
  | some transaction => cases idle

theorem commit_across (alone : state.Alone) (isOpen : state.connection.isOpen = true)
    (noted : state.inTransaction = true) :
    ∃ after, state.commitTransaction = (.ok (), after) ∧ Across state after ∧
      after.visible = state.visible := by
  simp only [commitTransaction, noted, Bool.not_true, Bool.false_eq_true, if_false,
    exec_single isOpen Parser.commit_parsed, execute]
  obtain ⟨⟨contents, readers, writer⟩, ⟨isOpen, holdsLock, schemas, transaction⟩⟩ := state
  have readers := alone.readers
  have writer := alone.writer
  -- a transaction that has done nothing, has read, or has written
  rcases transaction with _ | ⟨_ | _ | earlier, saved⟩ <;>
    simp only [use, Use.readers, Use.writer] at readers writer
  · cases noted
  · exact ⟨_, rfl, ⟨⟨readers, writer⟩, rfl, rfl, rfl⟩, rfl⟩
  · simp only [State.commit, readers]
    exact ⟨_, rfl, ⟨⟨rfl, writer⟩, rfl, rfl, rfl⟩, rfl⟩
  · simp only [State.commit, readers, ne_eq, not_true_eq_false, if_false]
    exact ⟨_, rfl, ⟨⟨rfl, rfl⟩, rfl, rfl, rfl⟩, rfl⟩

theorem rollback_across (alone : state.Alone) (isOpen : state.connection.isOpen = true)
    (noted : state.inTransaction = true) :
    ∃ after, state.rollBackTransaction = (.ok (), after) ∧ Across state after ∧
      after.visible = state.file.contents := by
  simp only [rollBackTransaction, noted, Bool.not_true, Bool.false_eq_true, if_false,
    exec_single isOpen Parser.rollback_parsed, execute]
  obtain ⟨⟨contents, readers, writer⟩, ⟨isOpen, holdsLock, schemas, transaction⟩⟩ := state
  have readers := alone.readers
  have writer := alone.writer
  rcases transaction with _ | ⟨_ | _ | earlier, saved⟩ <;>
    simp only [use, Use.readers, Use.writer] at readers writer
  · cases noted
  · exact ⟨_, rfl, ⟨⟨readers, writer⟩, rfl, rfl, rfl⟩, rfl⟩
  · simp only [State.rollback, readers]
    exact ⟨_, rfl, ⟨⟨rfl, writer⟩, rfl, rfl, rfl⟩, rfl⟩
  · exact ⟨_, rfl, ⟨⟨readers, rfl⟩, rfl, rfl, rfl⟩, rfl⟩

end State

end Rollout.Sqlite
