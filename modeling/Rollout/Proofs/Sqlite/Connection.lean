import Rollout.Proofs.Sqlite.Contents
import Rollout.Sqlite.Connection

/-!
A connection that has its file to itself. Nothing is ever busy then: reading shows what the
connection sees, and a change fails only by itself.
-/

namespace Rollout.Sqlite

/-- The mark that such a use leaves in the file. -/
def Use.writer : Use → Writer
  | writing _ => .changing
  | none | reading => .nobody

def Use.readers : Use → Nat
  | reading => 1
  | none | writing _ => 0

namespace State

/-- What the connection does with the file, if anything. -/
def use (state : State) : Use :=
  match state.connection.transaction with
  | some transaction => transaction.use
  | none => .none

/-- No other connection has left a mark in the file. -/
structure Alone (state : State) : Prop where
  readers : state.file.readers = state.use.readers
  writer : state.file.writer = state.use.writer

/-- The file as it is for the connection. -/
def visible (state : State) : Contents :=
  match state.use with
  | .writing contents => contents
  | .none | .reading => state.file.contents

/-- The second state follows within the same transaction, or without one in both, and with the
same lock; what would be restored is the same. -/
structure Within (before after : State) : Prop where
  alone : after.Alone
  isOpen : after.connection.isOpen = before.connection.isOpen
  holdsLock : after.connection.holdsLock = before.connection.holdsLock
  inTransaction : after.inTransaction = before.inTransaction
  base : before.inTransaction = true → after.file.contents = before.file.contents

namespace Within

variable {first second third : State}

theorem refl (alone : first.Alone) : Within first first := ⟨alone, rfl, rfl, rfl, fun _ => rfl⟩

theorem trans (start : Within first second) (rest : Within second third) : Within first third where
  alone := rest.alone
  isOpen := rest.isOpen.trans start.isOpen
  holdsLock := rest.holdsLock.trans start.holdsLock
  inTransaction := rest.inTransaction.trans start.inTransaction
  base noted := (rest.base (start.inTransaction.trans noted)).trans (start.base noted)

end Within

variable {state : State}

theorem visible_of_idle (idle : state.inTransaction = false) :
    state.visible = state.file.contents := by
  unfold inTransaction at idle
  cases found : state.connection.transaction with
  | none => simp [visible, use, found]
  | some transaction => simp [found] at idle

theorem seen_alone (alone : state.Alone) : state.seen = .ok state.visible := by
  obtain ⟨file, ⟨isOpen, holdsLock, schemas, transaction⟩⟩ := state
  have writer := alone.writer
  rcases transaction with _ | ⟨_ | _ | contents, saved⟩ <;>
    simp_all [seen, visible, use, Use.writer]

theorem counted_within (alone : state.Alone) :
    Within state state.counted ∧ state.counted.visible = state.visible := by
  obtain ⟨file, ⟨isOpen, holdsLock, schemas, transaction⟩⟩ := state
  have readers := alone.readers
  have writer := alone.writer
  rcases transaction with _ | ⟨_ | _ | contents, saved⟩
  · exact ⟨.refl alone, rfl⟩
  · refine ⟨⟨⟨?_, ?_⟩, rfl, rfl, rfl, fun _ => rfl⟩, rfl⟩
    · simpa [counted, setUse, withConnection, use, Use.readers] using readers
    · simpa [counted, setUse, withConnection, use, Use.writer] using writer
  · exact ⟨.refl alone, rfl⟩
  · exact ⟨.refl alone, rfl⟩

theorem changeFile_ok (change : Contents → Except Fault Contents) {contents : Contents}
    (alone : state.Alone) (changed : change state.visible = .ok contents) :
    ∃ after, state.changeFile change = (.ok (), after) ∧ Within state after ∧
      after.visible = contents := by
  have seen := seen_alone alone
  obtain ⟨file, ⟨isOpen, holdsLock, schemas, transaction⟩⟩ := state
  have readers := alone.readers
  have writer := alone.writer
  -- no transaction, or one that has done nothing yet, has read, or has written
  rcases transaction with _ | ⟨_ | _ | earlier, saved⟩ <;>
    simp only [use, Use.readers, Use.writer] at readers writer <;>
    simp only [changeFile, seen, changed, readers, writer, ne_eq, not_true_eq_false, if_false]
  · exact ⟨_, rfl, ⟨⟨rfl, rfl⟩, rfl, rfl, rfl, fun noted => by cases noted⟩, rfl⟩
  · exact ⟨_, rfl, ⟨⟨by simp [counted, setUse, withConnection, use, readers, Use.readers], rfl⟩,
      rfl, rfl, rfl, fun _ => rfl⟩, rfl⟩
  · exact ⟨_, rfl, ⟨⟨by simp [counted, setUse, withConnection, use, readers, Use.readers], rfl⟩,
      rfl, rfl, rfl, fun _ => rfl⟩, rfl⟩
  · exact ⟨_, rfl, ⟨⟨readers, writer⟩, rfl, rfl, rfl, fun _ => rfl⟩, rfl⟩

theorem changeFile_error (change : Contents → Except Fault Contents) {fault : Fault}
    (alone : state.Alone) (refused : change state.visible = .error fault) :
    ∃ after, state.changeFile change = (.error fault, after) ∧ Within state after ∧
      after.visible = state.visible := by
  have seen := seen_alone alone
  obtain ⟨file, ⟨isOpen, holdsLock, schemas, transaction⟩⟩ := state
  have readers := alone.readers
  have writer := alone.writer
  rcases transaction with _ | ⟨_ | _ | earlier, saved⟩ <;>
    simp only [use, Use.readers, Use.writer] at readers writer <;>
    simp only [changeFile, seen, refused, writer, ne_eq, not_true_eq_false, if_false]
  · exact ⟨_, rfl, .refl alone, rfl⟩
  · exact ⟨_, rfl, ⟨⟨by simp [counted, setUse, withConnection, use, readers, Use.readers], rfl⟩,
      rfl, rfl, rfl, fun _ => rfl⟩, rfl⟩
  · exact ⟨_, rfl, ⟨⟨by simp [counted, setUse, withConnection, use, readers, Use.readers], rfl⟩,
      rfl, rfl, rfl, fun _ => rfl⟩, rfl⟩
  · exact ⟨_, rfl, .refl alone, rfl⟩

theorem setOwnSchema_within (alone : state.Alone) (schema : String) (contents : Contents) :
    Within state (state.setOwnSchema schema contents) ∧
      (state.setOwnSchema schema contents).visible = state.visible :=
  ⟨⟨⟨alone.readers, alone.writer⟩, rfl, rfl, rfl, fun _ => rfl⟩, rfl⟩

theorem noteRead_within (alone : state.Alone) (schema : String) :
    Within state (state.noteRead schema) ∧ (state.noteRead schema).visible = state.visible := by
  unfold noteRead
  split
  · exact counted_within alone
  · exact ⟨.refl alone, rfl⟩

end State

end Rollout.Sqlite
