import Rollout.Command
import Rollout.Plan.Error
import Rollout.Step

/-!
Drafts: what planning has come to so far, and whether it goes on. A draft knows only the source
tree; what it needs to know of a database it leaves open, as a listing.
-/

namespace Rollout

inductive Draft.Event where
  /-- Files were matched against a pattern. -/
  | tried (pattern : String)
  | step (step : Step)
  /-- A list step, for schemas that only a database knows. -/
  | listing (kind : ListKind) (command : Command)
deriving DecidableEq, Repr

structure Draft (Value : Type) where
  events : List Draft.Event
  outcome : Except PlanError Value

namespace Draft

variable {Value Next : Type}

def Event.pattern? : Event → Option String
  | tried pattern => some pattern
  | _ => none

def Event.isStep : Event → Bool
  | tried _ => false
  | step _ | listing _ _ => true

def done (value : Value) : Draft Value := ⟨[], .ok value⟩

def fail (error : PlanError) : Draft Value := ⟨[], .error error⟩

/-- Goes on with the value, unless there is none. -/
def andThen (draft : Draft Value) (next : Value → Draft Next) : Draft Next :=
  match draft.outcome with
  | .error error => ⟨draft.events, .error error⟩
  | .ok value => ⟨draft.events ++ (next value).events, (next value).outcome⟩

instance : Monad Draft where
  pure := done
  bind := andThen

def ofSource (result : Except SourceError Value) : Draft Value :=
  ⟨[], result.mapError .source⟩

def event (event : Event) : Draft Unit := ⟨[event], .ok ()⟩

def step (step : Step) : Draft Unit := event (.step step)

def tried (pattern : String) : Draft Unit := event (.tried pattern)

/-- One draft after the other, for each of the values. -/
def each (draft : Value → Draft Unit) : List Value → Draft Unit
  | [] => done ()
  | value :: rest => (draft value).andThen fun _ => each draft rest

def patterns (draft : Draft Value) : List String := draft.events.filterMap Event.pattern?

end Draft

end Rollout
