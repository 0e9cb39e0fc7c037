import Mathlib.Algebra.Order.BigOperators.Group.List
import Mathlib.Data.String.Basic
import Rollout.Proofs.Folder
import Rollout.Proofs.Source.Listed

/-!
Which names of a folder are listed as they are when it is part of a commit. Where a name is not,
what is listed is not what the folder holds.
-/

namespace Rollout

open Source

def Node.isFolder : Node → Bool
  | file _ => false
  | folder _ => true

namespace Folder

/-- The names at any depth ascend and are such as a file system can hold. -/
def Tidy : Folder → Prop
  | nil => True
  | file name _ beside =>
      Path.IsName name ∧ '\x00' ∉ name.toList ∧
        (∀ entry ∈ beside.entries, name < entry.name) ∧ beside.Tidy
  | folder name below beside =>
      Path.IsName name ∧ '\x00' ∉ name.toList ∧
        (∀ entry ∈ beside.entries, name < entry.name) ∧ below.Tidy ∧ beside.Tidy

def decideTidy : (top : Folder) → Decidable top.Tidy
  | nil => isTrue trivial
  | file _ _ beside =>
      have := decideTidy beside
      inferInstanceAs (Decidable (_ ∧ _ ∧ _ ∧ _))
  | folder _ below beside =>
      have := decideTidy below
      have := decideTidy beside
      inferInstanceAs (Decidable (_ ∧ _ ∧ _ ∧ _ ∧ _))

instance (top : Folder) : Decidable top.Tidy := decideTidy top

theorem entries_cons (name : String) (node : Node) (beside : Folder) :
    (cons name node beside).entries = ⟨name, node.isFolder⟩ :: beside.entries := by
  cases node <;> rfl

theorem find_cons (first name : String) (node : Node) (beside : Folder) :
    (cons first node beside).find? name =
      if first = name then some node else beside.find? name := by
  cases node <;> rfl

theorem put_cons (other name : String) (first node : Node) (beside : Folder) :
    (cons other first beside).put name node =
      if name = other then cons name node beside
      else if name < other then cons name node (cons other first beside)
      else cons other first (beside.put name node) := by
  cases first <;> rfl

theorem tidy_cons {name : String} {node : Node} {beside : Folder} :
    (cons name node beside).Tidy ↔
      Path.IsName name ∧ '\x00' ∉ name.toList ∧ (∀ entry ∈ beside.entries, name < entry.name) ∧
        (∀ folder, node = .folder folder → folder.Tidy) ∧ beside.Tidy := by
  cases node <;> simp [cons, Tidy]

/-- A folder holds nothing, or something before the rest. -/
theorem cons_induction {motive : Folder → Prop} (empty : motive nil)
    (more : ∀ name node beside, motive beside → motive (cons name node beside)) (top : Folder) :
    motive top := by
  induction top with
  | nil => exact empty
  | file name content beside ih => exact more name (.file content) beside ih
  | folder name below beside _ ih => exact more name (.folder below) beside ih

theorem Tidy.name {top : Folder} (tidy : top.Tidy) {entry : Entry}
    (member : entry ∈ top.entries) : Path.IsName entry.name ∧ '\x00' ∉ entry.name.toList := by
  induction top using cons_induction with
  | empty => cases member
  | more name node beside ih =>
      obtain ⟨proper, whole, -, -, rest⟩ := tidy_cons.mp tidy
      rw [entries_cons] at member
      rcases List.mem_cons.mp member with rfl | later
      · exact ⟨proper, whole⟩
      · exact ih rest later

theorem Tidy.ascending {top : Folder} (tidy : top.Tidy) :
    top.entries.Pairwise fun first second => first.name < second.name := by
  induction top using cons_induction with
  | empty => exact .nil
  | more name node beside ih =>
      obtain ⟨-, -, least, -, rest⟩ := tidy_cons.mp tidy
      rw [entries_cons]
      exact .cons least (ih rest)

theorem mem_of_find {top : Folder} {name : String} {node : Node}
    (found : top.find? name = some node) : ⟨name, node.isFolder⟩ ∈ top.entries := by
  refine find_induction (motive := fun top => ⟨name, node.isFolder⟩ ∈ top.entries) found ?_ ?_ ?_
  · intro beside
    cases node <;> exact List.mem_cons_self
  · exact fun first content beside ih => List.mem_cons_of_mem _ ih
  · exact fun first below beside ih => List.mem_cons_of_mem _ ih

theorem height_of_find {top below : Folder} {name : String}
    (found : top.find? name = some (.folder below)) : below.height < top.height := by
  refine find_induction (motive := fun top => below.height < top.height) found ?_ ?_ ?_
  · exact fun beside => Nat.lt_of_lt_of_le (Nat.lt_succ_self _) (Nat.le_max_left _ _)
  · exact fun first content beside ih => ih
  · exact fun first inside beside ih => Nat.lt_of_lt_of_le ih (Nat.le_max_right _ _)

/-- What is listed can be found, as what it is listed. -/
theorem Tidy.find {top : Folder} (tidy : top.Tidy) {entry : Entry}
    (member : entry ∈ top.entries) :
    ∃ node, top.find? entry.name = some node ∧ node.isFolder = entry.isFolder := by
  induction top using cons_induction with
  | empty => cases member
  | more first node beside ih =>
      obtain ⟨-, -, least, -, rest⟩ := tidy_cons.mp tidy
      rw [entries_cons] at member
      rw [find_cons]
      rcases List.mem_cons.mp member with rfl | later
      · exact ⟨node, if_pos rfl, rfl⟩
      · rw [if_neg (ne_of_lt (least _ later))]
        exact ih rest later

theorem Tidy.find_folder {top : Folder} (tidy : top.Tidy) {name : String}
    (member : ⟨name, true⟩ ∈ top.entries) : ∃ below, top.find? name = some (.folder below) := by
  obtain ⟨node, found, sort⟩ := tidy.find member
  cases node with
  | file content => cases sort
  | folder below => exact ⟨below, found⟩

theorem Tidy.find_file {top : Folder} (tidy : top.Tidy) {name : String}
    (member : ⟨name, false⟩ ∈ top.entries) : ∃ content, top.find? name = some (.file content) := by
  obtain ⟨node, found, sort⟩ := tidy.find member
  cases node with
  | file content => exact ⟨content, found⟩
  | folder below => cases sort

theorem Tidy.flat {top : Folder} (tidy : top.Tidy)
    (none : ∀ name below, top.find? name ≠ some (.folder below)) :
    ∀ entry ∈ top.entries, entry.isFolder = false := by
  rintro ⟨name, isFolder⟩ member
  cases isFolder with
  | false => rfl
  | true =>
      obtain ⟨below, found⟩ := tidy.find_folder member
      exact absurd found (none name below)

theorem Tidy.below {top below : Folder} (tidy : top.Tidy) {name : String}
    (found : top.find? name = some (.folder below)) : below.Tidy := by
  refine find_induction (motive := fun top => top.Tidy → below.Tidy) found ?_ ?_ ?_ tidy
  · exact fun beside tidy => tidy.2.2.2.1
  · exact fun first content beside ih tidy => ih tidy.2.2.2
  · exact fun first inside beside ih tidy => ih tidy.2.2.2.2

theorem mem_put {top : Folder} {name : String} {node : Node} {entry : Entry}
    (member : entry ∈ (top.put name node).entries) :
    entry.name = name ∨ entry ∈ top.entries := by
  induction top using cons_induction with
  | empty =>
      rw [put, entries_cons] at member
      exact (List.mem_cons.mp member).imp_left (congrArg Entry.name)
  | more other first beside ih =>
      rw [put_cons] at member
      rw [entries_cons]
      split at member
      · rw [entries_cons] at member
        exact (List.mem_cons.mp member).imp (congrArg Entry.name) (List.mem_cons_of_mem _)
      · split at member
        · rw [entries_cons, entries_cons] at member
          exact (List.mem_cons.mp member).imp_left (congrArg Entry.name)
        · rw [entries_cons] at member
          rcases List.mem_cons.mp member with here | later
          · exact .inr (here ▸ List.mem_cons_self)
          · exact (ih later).imp_right (List.mem_cons_of_mem _)

/-- What is put into a tidy folder stands where its name does. -/
theorem Tidy.put {top : Folder} (tidy : top.Tidy) {name : String} (proper : Path.IsName name)
    (whole : '\x00' ∉ name.toList) {node : Node}
    (below : ∀ folder, node = .folder folder → folder.Tidy) : (top.put name node).Tidy := by
  induction top using cons_induction with
  | empty => exact tidy_cons.mpr ⟨proper, whole, nofun, below, trivial⟩
  | more other first beside ih =>
      obtain ⟨named, free, least, inner, rest⟩ := tidy_cons.mp tidy
      rw [put_cons]
      split <;> rename_i apart
      · subst apart
        exact tidy_cons.mpr ⟨proper, whole, least, below, rest⟩
      · split <;> rename_i later
        · refine tidy_cons.mpr ⟨proper, whole, ?_, below, tidy⟩
          rw [entries_cons]
          exact List.forall_mem_cons.mpr
            ⟨later, fun entry member => later.trans (least entry member)⟩
        · refine tidy_cons.mpr ⟨named, free, fun entry member => ?_, inner, ih rest⟩
          rcases mem_put member with same | held
          · exact same ▸ lt_of_le_of_ne (not_lt.mp later) (Ne.symm apart)
          · exact least entry held

/-- A tree that is built path by path is tidy. -/
theorem Tidy.putAt {node : Node} (below : ∀ folder, node = .folder folder → folder.Tidy)
    {names : List String} {top : Folder} (tidy : top.Tidy)
    (proper : ∀ name ∈ names, Path.IsName name ∧ '\x00' ∉ name.toList) :
    (putAt node names top).Tidy := by
  induction names generalizing top with
  | nil => exact tidy
  | cons name rest ih =>
      obtain ⟨⟨named, whole⟩, later⟩ := List.forall_mem_cons.mp proper
      cases rest with
      | nil => exact tidy.put named whole below
      | cons second more =>
          refine tidy.put named whole ?_
          rintro _ ⟨⟩
          refine ih ?_ later
          unfold child
          split <;> rename_i found
          · exact tidy.below found
          · trivial

/-- Are the names in the folder listed as they are, if these names lead to it? -/
def ShownAt (names : List String) (top : Folder) : Prop :=
  ∀ entry ∈ top.entries, Listed.isShown (Path.ofSegments (names ++ [entry.name])) = true

instance (names : List String) (top : Folder) : Decidable (top.ShownAt names) :=
  inferInstanceAs (Decidable (∀ entry ∈ top.entries, _))

/-- Are the names in the folder and at any depth below it listed as they are? -/
def Shown (names : List String) : Folder → Prop
  | nil => True
  | file name _ beside =>
      Listed.isShown (Path.ofSegments (names ++ [name])) = true ∧ beside.Shown names
  | folder name below beside =>
      Listed.isShown (Path.ofSegments (names ++ [name])) = true ∧ below.Shown (names ++ [name]) ∧
        beside.Shown names

def decideShown : (names : List String) → (top : Folder) → Decidable (top.Shown names)
  | _, nil => isTrue trivial
  | names, file _ _ beside =>
      have := decideShown names beside
      inferInstanceAs (Decidable (_ ∧ _))
  | names, folder name below beside =>
      have := decideShown (names ++ [name]) below
      have := decideShown names beside
      inferInstanceAs (Decidable (_ ∧ _ ∧ _))

instance (names : List String) (top : Folder) : Decidable (top.Shown names) :=
  decideShown names top

theorem Shown.level {names : List String} {top : Folder} (shown : top.Shown names) :
    top.ShownAt names := by
  induction top with
  | nil => exact nofun
  | file first content beside ih => exact List.forall_mem_cons.mpr ⟨shown.1, ih shown.2⟩
  | folder first inside beside _ ih => exact List.forall_mem_cons.mpr ⟨shown.1, ih shown.2.2⟩

theorem Shown.below {names : List String} {top below : Folder} {name : String}
    (shown : top.Shown names) (found : top.find? name = some (.folder below)) :
    below.Shown (names ++ [name]) := by
  refine find_induction (motive := fun top => top.Shown names → below.Shown (names ++ [name]))
    found ?_ ?_ ?_ shown
  · exact fun beside shown => shown.2.1
  · exact fun first content beside ih shown => ih shown.2
  · exact fun first inside beside ih shown => ih shown.2.2

/-- A folder is shown if its names are and all that is below it is. -/
theorem Tidy.shown {names : List String} {top : Folder} (tidy : top.Tidy)
    (level : top.ShownAt names)
    (below : ∀ name below, top.find? name = some (.folder below) → below.Shown (names ++ [name])) :
    top.Shown names := by
  -- what is found in the rest of a folder is found in the folder, where names are distinct
  have rest : ∀ {first : String} {beside : Folder},
      (∀ entry ∈ beside.entries, first < entry.name) →
      ∀ {name : String} {node : Node}, beside.find? name = some node → first ≠ name := by
    intro first beside least name node found
    exact ne_of_lt (least _ (mem_of_find found))
  induction top with
  | nil => trivial
  | file first content beside ih =>
      obtain ⟨here, later⟩ := List.forall_mem_cons.mp level
      refine ⟨here, ih tidy.2.2.2 later fun name inside found => below name inside ?_⟩
      rwa [find?, if_neg (rest tidy.2.2.1 found)]
  | folder first inside beside _ ih =>
      obtain ⟨here, later⟩ := List.forall_mem_cons.mp level
      refine ⟨here, below first inside (if_pos rfl), ih tidy.2.2.2.2 later ?_⟩
      intro name other found
      refine below name other ?_
      rwa [find?, if_neg (rest tidy.2.2.1 found)]

/-- What a path leads to. -/
def placeOf (top : Folder) (path : String) : Place := (Node.folder top).walk (Path.steps path)

theorem placeOf_join {top folder : Folder} {directory name : String} {node : Node}
    (led : top.placeOf directory = .node (.folder folder)) (proper : Path.IsName name)
    (found : folder.find? name = some node) :
    top.placeOf (Path.join directory name) = .node node := by
  unfold placeOf at led ⊢
  rw [Path.steps_join proper, Node.walk_append, led]
  simp [Node.walk, found]

theorem height_of_walk {names : List String} {top folder : Folder}
    (led : (Node.folder top).walk names = .node (.folder folder)) :
    folder.height ≤ top.height := by
  refine Node.walk_induction (motive := fun _ top => folder.height ≤ top.height) led ?_ nofun ?_
  · rintro _ ⟨⟩
    exact Nat.le_refl _
  · exact fun name rest top inside found ih => ih.trans (height_of_find found).le

theorem Shown.walk {names more : List String} {top folder : Folder} (shown : top.Shown names)
    (led : (Node.folder top).walk more = .node (.folder folder)) :
    folder.Shown (names ++ more) := by
  refine Node.walk_induction
    (motive := fun more top => ∀ names, top.Shown names → folder.Shown (names ++ more))
    led ?_ nofun ?_ names shown
  · rintro _ ⟨⟩ names shown
    simpa using shown
  · intro name rest top inside found ih names shown
    simpa using ih (names ++ [name]) (shown.below found)

theorem Tidy.placeOf {top folder : Folder} (tidy : top.Tidy) {path : String}
    (led : top.placeOf path = .node (.folder folder)) : folder.Tidy := by
  refine Node.walk_induction (motive := fun _ top => top.Tidy → folder.Tidy) led ?_ nofun ?_ tidy
  · rintro _ ⟨⟩ tidy
    exact tidy
  · exact fun name rest top inside found ih tidy => ih (tidy.below found)

/-- Names that lead somewhere are such as a file system can hold. -/
theorem Tidy.walk {names : List String} {top : Folder} (tidy : top.Tidy) {node : Node}
    (led : (Node.folder top).walk names = .node node) : ∀ name ∈ names, '\x00' ∉ name.toList := by
  refine Node.walk_induction
    (motive := fun names top => top.Tidy → ∀ name ∈ names, '\x00' ∉ name.toList) led ?_ ?_ ?_ tidy
  · exact fun _ _ _ => nofun
  · intro name content top _ found tidy
    exact List.forall_mem_cons.mpr ⟨(tidy.name (mem_of_find found)).2, nofun⟩
  · intro name rest top inside found ih tidy
    exact List.forall_mem_cons.mpr ⟨(tidy.name (mem_of_find found)).2, ih (tidy.below found)⟩

theorem Tidy.whole {top : Folder} (tidy : top.Tidy) {path : String} {node : Node}
    (led : top.placeOf path = .node node) : '\x00' ∉ path.toList := by
  intro member
  obtain ⟨step, among, within⟩ := (Path.mem_iff_steps (by decide) (by decide)).mp member
  exact tidy.walk led step among within

/-- The entries of a folder as they are listed, if these names lead to it. -/
def listed (names : List String) (top : Folder) : List Entry :=
  let shown := top.entries.map fun entry =>
    { entry with name := Revision.listedName names entry.name }
  shown.mergeSort fun first second => decide (first.name ≤ second.name)

theorem listed_perm (names : List String) (top : Folder) :
    (top.listed names).Perm
      (top.entries.map fun entry => { entry with name := Revision.listedName names entry.name }) :=
  List.mergeSort_perm _ _

theorem mem_listed {names : List String} {top : Folder} (tidy : top.Tidy) {entry : Entry}
    (member : entry ∈ top.listed names) : Path.IsName entry.name ∧
      ∃ actual ∈ top.entries, actual.isFolder = entry.isFolder := by
  have mapped := (listed_perm names top).mem_iff.mp member
  obtain ⟨actual, held, same⟩ := List.mem_map.mp mapped
  have name : Revision.listedName names actual.name = entry.name := by rw [← same]
  have sort : actual.isFolder = entry.isFolder := by rw [← same]
  rw [← name]
  exact ⟨Revision.listedName_isName names (tidy.name held).1, actual, held, sort⟩

theorem listed_shown {names : List String} {top : Folder} (tidy : top.Tidy)
    (level : top.ShownAt names) : top.listed names = top.entries := by
  have same : (top.entries.map fun entry =>
      { entry with name := Revision.listedName names entry.name }) = top.entries := by
    calc (top.entries.map fun entry =>
          { entry with name := Revision.listedName names entry.name })
        = top.entries.map id := by
          refine List.map_congr_left fun entry member => ?_
          rw [Revision.listedName_shown (tidy.name member).1 (level entry member)]
          rfl
      _ = top.entries := List.map_id _
  unfold listed
  rw [same]
  refine List.mergeSort_of_pairwise (tidy.ascending.imp fun less => ?_)
  exact decide_eq_true (le_of_lt less)

/-- Escapes make names longer, so if there are any, the listed names are not those of the folder,
in whatever order. -/
theorem shownAt_of_perm {names : List String} {top : Folder} (tidy : top.Tidy)
    (same : ((top.listed names).map (·.name)).Perm (top.entries.map (·.name))) :
    top.ShownAt names := by
  have total : (top.entries.map fun entry =>
        (Revision.listedName names entry.name).toList.length).sum =
      (top.entries.map fun entry => entry.name.toList.length).sum := by
    have shuffled := ((listed_perm names top).map (·.name)).symm.trans same
    have sums := (shuffled.map fun name => name.toList.length).sum_nat
    simp only [List.map_map, Function.comp_def] at sums
    exact sums
  by_contra escaped
  obtain ⟨entry, member, hidden⟩ : ∃ entry ∈ top.entries,
      Listed.isShown (Path.ofSegments (names ++ [entry.name])) = false := by
    simpa [ShownAt] using escaped
  have longer (entry : Entry) (member : entry ∈ top.entries) : entry.name.toList.length ≤
      (Revision.listedName names entry.name).toList.length := by
    have proper := (tidy.name member).1
    cases shown : Listed.isShown (Path.ofSegments (names ++ [entry.name])) with
    | true => rw [Revision.listedName_shown proper shown]
    | false => exact (Revision.length_listedName proper shown).le
  have more := List.sum_lt_sum _ _ longer
    ⟨entry, member, Revision.length_listedName (tidy.name member).1 hidden⟩
  exact more.ne total.symm

theorem shownAt_of_names {names : List String} {top : Folder} (tidy : top.Tidy)
    (files : ((top.listed names).filter (!·.isFolder)).map (·.name) =
      (top.entries.filter (!·.isFolder)).map (·.name))
    (folders : ((top.listed names).filter (·.isFolder)).map (·.name) =
      (top.entries.filter (·.isFolder)).map (·.name)) :
    top.ShownAt names := by
  refine shownAt_of_perm tidy ?_
  have parts (entries : List Entry) : ((entries.filter (·.isFolder)).map (·.name) ++
      (entries.filter (!·.isFolder)).map (·.name)).Perm (entries.map (·.name)) := by
    simpa using (List.filter_append_perm (·.isFolder) entries).map (·.name)
  have both := (parts (top.listed names)).symm
  rw [files, folders] at both
  exact both.trans (parts top.entries)

end Folder

end Rollout
