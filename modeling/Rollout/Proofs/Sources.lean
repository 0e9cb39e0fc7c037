import Rollout.Sources

/-!
The tree at a ref does not depend on which trees were asked for before. Once it is open it stays
open, so however often trees are asked for, the base location is opened at most once for a ref.
-/

namespace Rollout.Sources

variable {workspace : Workspace}

theorem lookup_cons_eq {key : Option String} {first : Option String × Tree}
    {rest : List (Option String × Tree)} :
    (first :: rest).lookup key = if key = first.1 then some first.2 else rest.lookup key := by
  obtain ⟨taken, tree⟩ := first
  by_cases same : key = taken
  · simp [same]
  · simp [List.lookup_cons, same, beq_false_of_ne same]

theorem lookup_insertTree {key : Option String} (other : Option String) (tree : Tree)
    {trees : List (Option String × Tree)} (fresh : trees.lookup key = none) :
    (insertTree key tree trees).lookup other =
      if other = key then some tree else trees.lookup other := by
  induction trees with
  | nil => simp [insertTree, lookup_cons_eq]
  | cons first rest ih =>
      rw [lookup_cons_eq] at fresh
      unfold insertTree
      split
      · rw [lookup_cons_eq]
      · by_cases taken : key = first.1
        · rw [if_pos taken] at fresh
          cases fresh
        · rw [if_neg taken] at fresh
          rw [lookup_cons_eq, ih fresh, lookup_cons_eq]
          by_cases same : other = first.1
          · have apart : other ≠ key := fun equal => taken (equal ▸ same)
            simp [same, same ▸ apart]
          · simp [same]

theorem get_congr {sources changed : Sources} {ref : Option String}
    (opened : changed.opened? ref = sources.opened? ref)
    (drivers : changed.drivers = sources.drivers) (base : changed.base = sources.base) :
    (changed.get workspace ref).1 = (sources.get workspace ref).1 := by
  unfold get key
  rw [opened, drivers, base]
  split
  · rfl
  · dsimp only
    split <;> rfl

/-- The answer for a ref stays the same whatever else is asked for. -/
theorem get_get (sources : Sources) (first second : Option String) :
    ((sources.get workspace first).2.get workspace second).1 =
      (sources.get workspace second).1 := by
  cases known : sources.opened? first with
  | some tree => simp [get, known]
  | none =>
      cases opened : Registry.openSource ({ sources := sources.drivers } : Registry Empty)
          workspace (sources.base.withRef (sources.key first)) with
      | error fault => simp [get, known, opened]
      | ok tree =>
          have after : (sources.get workspace first).2 =
              { sources with trees := insertTree (sources.key first) tree sources.trees } := by
            simp [get, known, opened]
          have lookup := lookup_insertTree (sources.key second) tree known
          -- the tree that was opened is found under its own key and changes no other
          by_cases same : sources.key second = sources.key first
          · have unknown : sources.opened? second = none := by
              unfold opened? at known ⊢
              rwa [same]
            have held : (sources.get workspace first).2.opened? second = some tree := by
              rw [after]
              exact lookup.trans (if_pos same)
            simp [get.eq_def _ _ second, held, unknown, same, opened]
          · have held : (sources.get workspace first).2.opened? second =
                sources.opened? second := by
              rw [after]
              exact lookup.trans (if_neg same)
            exact get_congr held (by rw [after]) (by rw [after])

/-- All ways in which asking for a tree can go. -/
inductive Got (sources : Sources) (workspace : Workspace) (ref : Option String) :
    Except RegistryError Tree × Sources → Prop where
  | held {tree : Tree} (known : sources.opened? ref = some tree) :
      Got sources workspace ref (.ok tree, sources)
  | refused {error : RegistryError} (unknown : sources.opened? ref = none) :
      Got sources workspace ref (.error error, sources)
  | opened {tree : Tree} (unknown : sources.opened? ref = none) :
      Got sources workspace ref (.ok tree,
        { sources with trees := insertTree (sources.key ref) tree sources.trees })

theorem get_got (sources : Sources) (workspace : Workspace) (ref : Option String) :
    Got sources workspace ref (sources.get workspace ref) := by
  unfold get
  split <;> rename_i known
  · exact .held known
  · dsimp only
    split
    · exact .refused known
    · exact .opened known

section Kept

variable {sources : Sources} {ref : Option String} {tree : Tree}

theorem get_held (held : sources.opened? ref = some tree) (workspace : Workspace) :
    sources.get workspace ref = (.ok tree, sources) := by
  unfold get
  rw [held]

/-- A tree that cannot be opened leaves everything as it was. -/
theorem get_error {error : RegistryError} (failed : (sources.get workspace ref).1 = .error error) :
    (sources.get workspace ref).2 = sources := by
  have got := get_got sources workspace ref
  generalize sources.get workspace ref = answered at got failed ⊢
  cases got with
  | held => rfl
  | refused => rfl
  | opened => cases failed

theorem get_ok (found : (sources.get workspace ref).1 = .ok tree) :
    (sources.get workspace ref).2.opened? ref = some tree := by
  have got := get_got sources workspace ref
  generalize sources.get workspace ref = answered at got found ⊢
  cases got with
  | held known =>
      cases found
      exact known
  | refused => cases found
  | opened unknown =>
      cases found
      exact (lookup_insertTree _ _ unknown).trans (if_pos rfl)

theorem get_base (sources : Sources) (workspace : Workspace) (ref : Option String) :
    (sources.get workspace ref).2.base = sources.base := by
  have got := get_got sources workspace ref
  generalize sources.get workspace ref = answered at got ⊢
  cases got <;> rfl

/-- What is found under a key is found there whatever is asked for. -/
theorem get_lookup {key : Option String} (held : sources.trees.lookup key = some tree)
    (workspace : Workspace) (ref : Option String) :
    (sources.get workspace ref).2.trees.lookup key = some tree := by
  have got := get_got sources workspace ref
  generalize sources.get workspace ref = answered at got ⊢
  cases got with
  | held => exact held
  | refused => exact held
  | opened unknown =>
      have other : key ≠ sources.key ref := by
        rintro rfl
        exact nomatch held.symm.trans unknown
      exact (lookup_insertTree _ _ unknown).trans ((if_neg other).trans held)

end Kept

/-- The tree at a ref is asked for, in a workspace as it is then. -/
abbrev Request := Workspace × Option String

def askAll (sources : Sources) (requests : List Request) : Sources :=
  requests.foldl (fun sources request => (sources.get request.1 request.2).2) sources

/-- Does a request make the base location be opened, with success? -/
def opens (sources : Sources) (request : Request) : Bool :=
  (sources.opened? request.2).isNone && (sources.get request.1 request.2).1.isOk

/-- The refs that requests make the base location be opened at, with success, in order. -/
def openings (sources : Sources) : List Request → List (Option String)
  | [] => []
  | request :: rest =>
      let later := openings (sources.get request.1 request.2).2 rest
      if sources.opens request then sources.key request.2 :: later else later

section Requests

variable {sources : Sources}

theorem askAll_append (sources : Sources) (first rest : List Request) :
    sources.askAll (first ++ rest) = (sources.askAll first).askAll rest :=
  List.foldl_append

theorem askAll_base (requests : List Request) : (sources.askAll requests).base = sources.base := by
  induction requests generalizing sources with
  | nil => rfl
  | cons request rest ih => exact ih.trans (get_base sources _ _)

theorem askAll_lookup {key : Option String} {tree : Tree}
    (held : sources.trees.lookup key = some tree) (requests : List Request) :
    (sources.askAll requests).trees.lookup key = some tree := by
  induction requests generalizing sources with
  | nil => exact held
  | cons request rest ih => exact ih (get_lookup held _ _)

/-- A tree that is open stays open, whatever is asked for. -/
theorem askAll_held {ref : Option String} {tree : Tree} (held : sources.opened? ref = some tree)
    (requests : List Request) : (sources.askAll requests).opened? ref = some tree := by
  unfold opened? key
  rw [askAll_base]
  exact askAll_lookup held requests

/-- A tree that is among those asked for is open then. -/
theorem askAll_asked {workspace : Workspace} {refs : List (Option String)} {ref : Option String}
    {tree : Tree} (asked : ref ∈ refs) (found : (sources.get workspace ref).1 = .ok tree) :
    (sources.askAll (refs.map fun other => (workspace, other))).opened? ref = some tree := by
  induction refs generalizing sources with
  | nil => cases asked
  | cons first rest ih =>
      by_cases same : ref = first
      · subst same
        exact askAll_held (get_ok found) _
      · -- other refs that are asked for before do not change the answer
        have later : ref ∈ rest := (List.mem_cons.mp asked).resolve_left same
        exact ih later ((get_get sources first ref).trans found)

theorem opens_unknown {request : Request} (opens : sources.opens request = true) :
    sources.opened? request.2 = none ∧ ∃ tree, (sources.get request.1 request.2).1 = .ok tree := by
  obtain ⟨unknown, found⟩ := Bool.and_eq_true_iff.mp opens
  refine ⟨Option.isNone_iff_eq_none.mp unknown, ?_⟩
  cases answer : (sources.get request.1 request.2).1 with
  | error error =>
      rw [answer] at found
      cases found
  | ok tree => exact ⟨tree, rfl⟩

theorem openings_fresh {key : Option String} {tree : Tree}
    (held : sources.trees.lookup key = some tree) (requests : List Request) :
    key ∉ sources.openings requests := by
  induction requests generalizing sources with
  | nil => exact List.not_mem_nil
  | cons request rest ih =>
      have later : key ∉ (sources.get request.1 request.2).2.openings rest :=
        ih (get_lookup held _ _)
      unfold openings
      dsimp only
      split <;> rename_i opens
      · intro member
        rcases List.mem_cons.mp member with rfl | deeper
        · exact nomatch held.symm.trans (opens_unknown opens).1
        · exact later deeper
      · exact later

/-- Whatever is asked for, the base location is opened at most once for a ref. -/
theorem openings_nodup (requests : List Request) : (sources.openings requests).Nodup := by
  induction requests generalizing sources with
  | nil => exact List.nodup_nil
  | cons request rest ih =>
      unfold openings
      dsimp only
      split <;> rename_i opens
      · -- what was opened is held from then on, so it is not opened again
        obtain ⟨-, tree, found⟩ := opens_unknown opens
        have held := get_ok found
        unfold opened? key at held
        rw [get_base] at held
        exact List.nodup_cons.mpr ⟨openings_fresh held rest, ih⟩
      · exact ih

end Requests

end Rollout.Sources
