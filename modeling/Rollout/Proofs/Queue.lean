import Rollout.Context

/-!
The queue's note on effects. Every way to build a queue keeps the note true of its steps.
-/

namespace Rollout.Queue

/-- The queue's note tells whether any of its steps has effects. -/
def Faithful (queue : Queue) : Prop := queue.effectful = queue.steps.any Step.hasEffects

/-- Some step does more than show what a database holds. -/
def HasEffects (queue : Queue) : Prop := ∃ step ∈ queue.steps, step.isList = false

theorem Faithful.effectful_iff {queue : Queue} (faithful : queue.Faithful) :
    queue.effectful = true ↔ queue.HasEffects := by
  rw [faithful, List.any_eq_true]
  simp [HasEffects, Step.hasEffects]

theorem empty_faithful : Faithful {} := rfl

theorem push_faithful (queue : Queue) (step : Step) (faithful : queue.Faithful) :
    (queue.push step).Faithful := by
  unfold Faithful at faithful ⊢
  simp [push, faithful]

theorem append_faithful (queue : Queue) (steps : List Step) (faithful : queue.Faithful) :
    (queue.append steps).Faithful := by
  induction steps generalizing queue with
  | nil => exact faithful
  | cons step rest ih => exact ih (queue.push step) (push_faithful queue step faithful)

theorem truncate_faithful (queue : Queue) (length : Nat) : (queue.truncate length).Faithful := rfl

theorem append_steps (queue : Queue) (steps : List Step) :
    (queue.append steps).steps = queue.steps ++ steps := by
  induction steps generalizing queue with
  | nil => simp [append]
  | cons step rest ih =>
      have pushed : queue.append (step :: rest) = (queue.push step).append rest := rfl
      simp [pushed, ih, push]

theorem Faithful.effectful_of_mem {queue : Queue} (faithful : queue.Faithful) {step : Step}
    (member : step ∈ queue.steps) (effects : step.isList = false) : queue.effectful = true :=
  faithful.effectful_iff.mpr ⟨step, member, effects⟩

end Rollout.Queue
