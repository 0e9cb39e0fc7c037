import Mathlib.Data.List.Induction
import Rollout.Proofs.Database.Calls

/-!
Conversations with a database: the calls that were made and what they were answered. Of a database
that several sessions share, a conversation is all that one of them gets to know. Around the lock it
goes through phases, in which some calls can be made and others not.
-/

namespace Rollout.Database

/-- A call, what it was answered, and whether a transaction was open afterwards. -/
structure Exchange where
  call : Call
  answer : Except DatabaseError call.Reply
  isOpen : Bool

/-- What calls are answered and whether a transaction is open then, given what was said before. -/
abbrev Oracle := List Exchange → (call : Call) → Except DatabaseError call.Reply × Bool

/-- A database of which no more is known than what it was asked and has answered. -/
def answering (oracle : Oracle) : Database (List Exchange) where
  perform call said :=
    let (answer, isOpen) := oracle said call
    (answer, said ++ [⟨call, answer, isOpen⟩])
  inTransaction said := (said.getLast?.map (·.isOpen)).getD false

/-- Is the lock held after an exchange, given whether it was before? -/
def Exchange.holdsAfter (held : Bool) (exchange : Exchange) : Bool :=
  if exchange.answer.isOk then
    match exchange.call with
    | .lock => true
    | .unlock => false
    | _ => held
  else held

/-- Was the lock taken, and has it not been given back since? -/
def holding (said : List Exchange) : Bool := said.foldl Exchange.holdsAfter false

inductive Phase where
  /-- The lock has not been asked for since it was last given back. -/
  | outside
  | inside
  /-- The transaction that was open has been rolled back for closing. -/
  | closing
  | closed
deriving DecidableEq, Repr

/-- Calls that ask what there is. -/
def Call.asks : Call → Bool
  | schemaNames | foreignKeys | schemaItems _ _ => true
  | _ => false

namespace Phase

/-- The phase after an exchange; none if the call has no place in this one. -/
def next (phase : Phase) (exchange : Exchange) : Option Phase :=
  match phase with
  | outside =>
      match exchange.call with
      | .lock => some (if exchange.answer.isOk then inside else outside)
      | .rollback => some closing
      | .close => some closed
      | call => if call.asks then some outside else none
  | inside =>
      match exchange.call with
      | .unlock => some outside
      | call => if call.inBatch then some inside else none
  | closing => if exchange.call = .close then some closed else none
  | closed => none

/-- The calls that have a place in a phase. -/
theorem next_cases {phase after : Phase} {exchange : Exchange}
    (next : phase.next exchange = some after) :
    phase = outside ∧ (exchange.call = .lock ∨ exchange.call = .rollback ∨
        exchange.call.asks = true) ∨
      exchange.call = .close ∧ after = closed ∨
      phase = inside ∧ (exchange.call = .unlock ∨ exchange.call.inBatch = true) := by
  obtain ⟨call, answer, isOpen⟩ := exchange
  cases phase with
  | outside => cases call <;> simp_all [Phase.next, Call.asks]
  | inside => cases call <;> simp_all [Phase.next, Call.inBatch]
  | closing => simp_all [Phase.next]
  | closed => cases next

end Phase

/-- The phase after all that was said, if every call had its place. -/
def phaseOf (said : List Exchange) : Option Phase := said.foldlM Phase.next .outside

variable {said : List Exchange} {exchange : Exchange}

theorem phaseOf_append (said : List Exchange) (exchange : Exchange) :
    phaseOf (said ++ [exchange]) = (phaseOf said).bind (·.next exchange) := by
  simp [phaseOf, List.foldlM_append]

theorem holding_append (said : List Exchange) (exchange : Exchange) :
    holding (said ++ [exchange]) = exchange.holdsAfter (holding said) := by
  simp [holding]

/-- What was said up to some point has gone through phases if all of it has. -/
theorem phaseOf_prefix {whole : List Exchange} {last : Phase} (start : said <+: whole)
    (phased : phaseOf whole = some last) : ∃ phase, phaseOf said = some phase := by
  obtain ⟨rest, rfl⟩ := start
  unfold phaseOf at phased
  rw [List.foldlM_append] at phased
  obtain ⟨phase, reached, -⟩ := Option.bind_eq_some_iff.mp phased
  exact ⟨phase, reached⟩

/-- Calls other than those for the lock leave it as it is. -/
theorem holdsAfter_other {held : Bool} (lock : exchange.call ≠ .lock)
    (unlock : exchange.call ≠ .unlock) : exchange.holdsAfter held = held := by
  obtain ⟨call, answer, isOpen⟩ := exchange
  unfold Exchange.holdsAfter
  cases call <;> simp_all

theorem holdsAfter_error {held : Bool} (call : Call) (error : DatabaseError) (isOpen : Bool) :
    Exchange.holdsAfter held ⟨call, .error error, isOpen⟩ = held := rfl

/-- In the inner phase the lock is held. -/
theorem holding_inside (phased : phaseOf said = some .inside) : holding said = true := by
  induction said using List.reverseRecOn with
  | nil => cases phased
  | append_singleton said exchange ih =>
      rw [phaseOf_append] at phased
      obtain ⟨phase, before, next⟩ := Option.bind_eq_some_iff.mp phased
      rw [holding_append]
      obtain ⟨call, answer, isOpen⟩ := exchange
      cases phase with
      | outside =>
          cases call with
          | lock =>
              cases answer with
              | error error => cases next
              | ok reply => rfl
          | _ => cases next
      | inside =>
          have held := ih before
          rw [holdsAfter_other ?_ ?_, held]
          · rintro rfl
            cases next
          · rintro rfl
            cases next
      | closing =>
          unfold Phase.next at next
          dsimp only at next
          split at next <;> cases next
      | closed => cases next

section Reaching

variable {oracle : Oracle} {last : List Exchange}

theorem phaseOf_perform (oracle : Oracle) (said : List Exchange) (call : Call) :
    ∃ isOpen, phaseOf ((answering oracle).perform call said).2 =
      (phaseOf said).bind (·.next ⟨call, ((answering oracle).perform call said).1, isOpen⟩) :=
  ⟨_, phaseOf_append said _⟩

theorem asks_outside (reached : (answering oracle).Reach (·.asks = true) said last)
    (phased : phaseOf said = some .outside) : phaseOf last = some .outside := by
  let isOutside (said : List Exchange) : Prop := phaseOf said = some .outside
  have start : isOutside said := phased
  refine reached.keeps ?_ start
  intro call said asks phased
  obtain ⟨isOpen, same⟩ := phaseOf_perform oracle said call
  refine same.trans ?_
  rw [show phaseOf said = _ from phased]
  cases call <;> first | rfl | cases asks

theorem batch_inside (reached : (answering oracle).Reach (·.inBatch = true) said last)
    (phased : phaseOf said = some .inside) : phaseOf last = some .inside := by
  let isInside (said : List Exchange) : Prop := phaseOf said = some .inside
  have start : isInside said := phased
  refine reached.keeps ?_ start
  intro call said inBatch phased
  obtain ⟨isOpen, same⟩ := phaseOf_perform oracle said call
  refine same.trans ?_
  rw [show phaseOf said = _ from phased]
  cases call <;> first | rfl | cases inBatch

end Reaching

end Rollout.Database
