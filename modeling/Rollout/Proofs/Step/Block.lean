import Rollout.Proofs.Session.Frame

/-!
The shape of planned steps. A command comes to one block. What a file of commands holds is a row of
blocks again, between the marks of the file. How deep such files nest shows in the shape, and a run
of the steps counts its depth to just that.
-/

namespace Rollout.Step

/-- Does the step do a part of what its command is for? -/
def isWork : Step → Bool
  | execFile _ | execScript _ | shellFile _ | shell _ _ | loadCsv _ _ _ => true
  | _ => false

theorem isTransaction_of_isWork {step : Step} (works : step.isWork = true) :
    step.isTransaction = false := by
  cases step
  case begin | commit | rollback => cases works
  all_goals rfl

/-- Parts of one shape, one after the other. -/
inductive Row (part : List Step → Prop) : List Step → Prop where
  | nil : Row part []
  | cons {first rest : List Step} (head : part first) (tail : Row part rest) :
      Row part (first ++ rest)

/-- Work, or a file of commands between its marks. -/
inductive Item (inside : List Step → Prop) : List Step → Prop where
  | work (step : Step) (works : step.isWork = true) : Item inside [step]
  | file (file : FileRef) {held : List Step} (within : inside held) :
      Item inside (enterFile file :: (held ++ [leaveFile file]))

/-- The steps of one command, given what may stand inside a file of commands. None of them switches
transactions if that is done automatically. -/
inductive BlockOf (automatic : Bool) (inside : List Step → Prop) : List Step → Prop where
  | command (text : String) {items : List Step} (body : Row (Item inside) items)
      (filled : items ≠ []) : BlockOf automatic inside (runCommand text :: items)
  | begin (manual : automatic = false) : BlockOf automatic inside [begin]
  | commit (text : String) (manual : automatic = false) :
      BlockOf automatic inside [runCommand text, commit]
  | rollback (text : String) (manual : automatic = false) :
      BlockOf automatic inside [runCommand text, rollback]
  | list (kind : ListKind) (schemas : List String) : BlockOf automatic inside [list kind schemas]

/-- The steps of one command in which files of commands nest at most so deep. -/
def Block (automatic : Bool) : Nat → List Step → Prop
  | 0 => BlockOf automatic fun _ => False
  | depth + 1 => BlockOf automatic (Row (Block automatic depth))

namespace Row

variable {part : List Step → Prop} {first rest : List Step}

theorem single (held : part first) : Row part first := by
  rw [← List.append_nil first]
  exact .cons held .nil

theorem append (before : Row part first) (after : Row part rest) : Row part (first ++ rest) := by
  induction before with
  | nil => exact after
  | cons head _ ih =>
      rw [List.append_assoc]
      exact .cons head ih

/-- Every step of a row belongs to one of its parts. -/
theorem exists_of_mem {steps : List Step} (row : Row part steps) {step : Step}
    (member : step ∈ steps) : ∃ held, part held ∧ step ∈ held := by
  induction row with
  | nil => cases member
  | cons head _ ih =>
      rcases List.mem_append.mp member with here | later
      · exact ⟨_, head, here⟩
      · exact ih later

end Row

section Manual

variable {automatic : Bool} {inside : List Step → Prop} {steps : List Step} {step : Step}

theorem Item.manual (held : ∀ steps, inside steps → ∀ step ∈ steps, step.isTransaction = true →
    automatic = false) (item : Item inside steps) (member : step ∈ steps)
    (switches : step.isTransaction = true) : automatic = false := by
  cases item with
  | work only works =>
      obtain rfl := List.mem_singleton.mp member
      rw [isTransaction_of_isWork works] at switches
      cases switches
  | file file within =>
      rcases List.mem_cons.mp member with rfl | deeper
      · cases switches
      · rcases List.mem_append.mp deeper with inner | last
        · exact held _ within step inner switches
        · obtain rfl := List.mem_singleton.mp last
          cases switches

theorem BlockOf.manual (held : ∀ steps, inside steps → ∀ step ∈ steps, step.isTransaction = true →
    automatic = false) (block : BlockOf automatic inside steps) (member : step ∈ steps)
    (switches : step.isTransaction = true) : automatic = false := by
  cases block with
  | command text body filled =>
      rcases List.mem_cons.mp member with rfl | deeper
      · cases switches
      · obtain ⟨item, isItem, within⟩ := body.exists_of_mem deeper
        exact isItem.manual held within switches
  | begin manual => exact manual
  | commit text manual => exact manual
  | rollback text manual => exact manual
  | list kind schemas =>
      obtain rfl := List.mem_singleton.mp member
      cases switches

/-- Only blocks that are planned for explicit transactions switch them, however deep. -/
theorem Block.manual {depth : Nat} (block : Block automatic depth steps) (member : step ∈ steps)
    (switches : step.isTransaction = true) : automatic = false := by
  induction depth generalizing steps step with
  | zero => exact BlockOf.manual (fun _ never => never.elim) block member switches
  | succ depth ih =>
      refine BlockOf.manual ?_ block member switches
      intro held row step member switches
      obtain ⟨one, isBlock, within⟩ := row.exists_of_mem member
      exact ih isBlock within switches

end Manual

/-- The depth after a step. There is none if a file is left that was not entered, or if files would
nest deeper than the limit. -/
def nextDepth (limit : Nat) : Step → Nat → Option Nat
  | enterFile _, depth => if depth < limit then some (depth + 1) else none
  | leaveFile _, depth => if depth = 0 then none else some (depth - 1)
  | _, depth => some depth

def depthAfter (limit : Nat) : List Step → Nat → Option Nat
  | [], depth => some depth
  | step :: rest, depth => (step.nextDepth limit depth).bind (depthAfter limit rest)

theorem depthAfter_append (limit : Nat) (first rest : List Step) (depth : Nat) :
    depthAfter limit (first ++ rest) depth =
      (depthAfter limit first depth).bind (depthAfter limit rest) := by
  induction first generalizing depth with
  | nil => rfl
  | cons step later ih =>
      simp only [List.cons_append, depthAfter, Option.bind_assoc]
      congr 1
      funext next
      exact ih next

/-- From every depth that leaves some room below the limit, the steps come back to it. -/
def Returns (limit room : Nat) (steps : List Step) : Prop :=
  ∀ depth, depth + room ≤ limit → depthAfter limit steps depth = some depth

section Returns

variable {automatic : Bool} {limit room : Nat} {inside part : List Step → Prop} {steps : List Step}

theorem Row.returns (parts : ∀ steps, part steps → Returns limit room steps)
    (row : Row part steps) : Returns limit room steps := by
  intro depth fits
  induction row with
  | nil => rfl
  | cons head _ ih =>
      rw [depthAfter_append, parts _ head depth fits]
      exact ih

/-- What stands inside of a file starts one level deeper, and so needs less room. -/
theorem Item.returns (held : ∀ steps, inside steps → ∃ less, room = less + 1 ∧
    Returns limit less steps) (item : Item inside steps) : Returns limit room steps := by
  intro depth fits
  cases item with
  | work step works => cases step <;> first | rfl | cases works
  | file file within =>
      obtain ⟨less, rfl, returns⟩ := held _ within
      have enters : depth < limit := by omega
      have inner := returns (depth + 1) (by omega)
      simp [depthAfter, depthAfter_append, nextDepth, enters, inner]

theorem BlockOf.returns (held : ∀ steps, inside steps → ∃ less, room = less + 1 ∧
    Returns limit less steps) (block : BlockOf automatic inside steps) :
    Returns limit room steps := by
  intro depth fits
  cases block with
  | command text body filled => exact body.returns (fun _ => Item.returns held) depth fits
  | begin manual => rfl
  | commit text manual => rfl
  | rollback text manual => rfl
  | list kind schemas => rfl

theorem Block.returns {depth : Nat} (block : Block automatic depth steps) :
    Returns limit depth steps := by
  induction depth generalizing steps with
  | zero => exact BlockOf.returns (fun _ never => never.elim) block
  | succ depth ih =>
      apply BlockOf.returns _ block
      intro held row
      exact ⟨depth, rfl, row.returns fun _ => ih⟩

end Returns

end Rollout.Step
