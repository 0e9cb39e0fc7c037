/-!
Results that hold a value, or none, although something was done to them.
-/

namespace Rollout.Outcome

variable {Fault Other Value Next : Type}

theorem map_eq_ok {result : Except Fault Value} {change : Value → Next} {next : Next} :
    result.map change = .ok next ↔ ∃ value, result = .ok value ∧ change value = next := by
  cases result with
  | error fault => simp [Except.map]
  | ok value => simp [Except.map]

theorem map_eq_error {result : Except Fault Value} {change : Value → Next} {fault : Fault} :
    result.map change = .error fault ↔ result = .error fault := by
  cases result with
  | error other => simp [Except.map]
  | ok value => simp [Except.map]

theorem bind_eq_ok {result : Except Fault Value} {next : Value → Except Fault Next} {last : Next} :
    result >>= next = .ok last ↔ ∃ value, result = .ok value ∧ next value = .ok last := by
  cases result with
  | error fault => simp [bind, Except.bind]
  | ok value => simp [bind, Except.bind]

theorem mapError_eq_ok {result : Except Fault Value} {change : Fault → Other} {value : Value} :
    result.mapError change = .ok value ↔ result = .ok value := by
  cases result with
  | error fault =>
      constructor
      · intro same
        cases same
      · intro same
        cases same
  | ok found =>
      constructor
      · intro same
        cases same
        rfl
      · intro same
        cases same
        rfl

/-- Both hold the same value, or neither holds one. -/
def Agree (first second : Except Fault Value) : Prop := first.toOption = second.toOption

section Agree

variable {first second : Except Fault Value}

theorem agree_iff : Agree first second ↔
    (∃ value, first = .ok value ∧ second = .ok value) ∨
      ∃ fault other, first = .error fault ∧ second = .error other := by
  cases first <;> cases second <;> simp [Agree, Except.toOption, eq_comm]

theorem agree_ok {value : Value} : Agree (.ok value) second ↔ second = .ok value := by
  cases second <;> simp [Agree, Except.toOption, eq_comm]

theorem Agree.map (agree : Agree first second) (change : Value → Next) :
    Agree (first.map change) (second.map change) := by
  rcases agree_iff.mp agree with ⟨value, rfl, rfl⟩ | ⟨fault, other, rfl, rfl⟩ <;> rfl

end Agree

end Rollout.Outcome
