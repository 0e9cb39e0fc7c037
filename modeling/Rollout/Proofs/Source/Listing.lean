import Rollout.Proofs.Source.Twins

/-!
What the listing of a directory is, on disk and at a ref. A directory inside the tree is always
listed; no two entries have the same name, and those that are listed as they are, are those that
the directory holds.
-/

namespace Rollout

/-- A name that a file system can hold. -/
def Path.Holdable (name : String) : Prop := Path.IsName name ∧ '\x00' ∉ name.toList

instance (name : String) : Decidable (Path.Holdable name) :=
  inferInstanceAs (Decidable (_ ∧ _))

namespace Folder

theorem Tidy.names_nodup {top : Folder} (tidy : top.Tidy) : (top.entries.map (·.name)).Nodup :=
  (List.pairwise_map.mpr tidy.ascending).imp ne_of_lt

/-- No file at any depth has a name that could be taken for a pattern. -/
def Literal : Folder → Prop
  | nil => True
  | file name _ beside => Path.isWildcard name = false ∧ beside.Literal
  | folder _ below beside => below.Literal ∧ beside.Literal

def decideLiteral : (top : Folder) → Decidable top.Literal
  | nil => isTrue trivial
  | file _ _ beside =>
      have := decideLiteral beside
      inferInstanceAs (Decidable (_ ∧ _))
  | folder _ below beside =>
      have := decideLiteral below
      have := decideLiteral beside
      inferInstanceAs (Decidable (_ ∧ _))

instance (top : Folder) : Decidable top.Literal := decideLiteral top

theorem Literal.not_isWildcard {top : Folder} (literal : top.Literal) {name : String}
    (member : ⟨name, false⟩ ∈ top.entries) : Path.isWildcard name = false := by
  induction top with
  | nil => cases member
  | file first content beside ih =>
      rcases List.mem_cons.mp member with same | later
      · cases same
        exact literal.1
      · exact ih literal.2 later
  | folder first below beside _ ih =>
      rcases List.mem_cons.mp member with same | later
      · cases same
      · exact ih literal.2 later

theorem Literal.find_folder {top below : Folder} (literal : top.Literal) {name : String}
    (found : top.find? name = some (.folder below)) : below.Literal := by
  refine find_induction (motive := fun top => top.Literal → below.Literal) found ?_ ?_ ?_ literal
  · exact fun beside literal => literal.1
  · exact fun first content beside ih literal => ih literal.2
  · exact fun first inside beside ih literal => ih literal.2

end Folder

namespace Snapshot

variable {snapshot : Snapshot} {directory name : String} {entries : List Entry}

/-- The names at any depth ascend and are such as a file system can hold. -/
def Tidy (snapshot : Snapshot) : Prop :=
  ∀ folder, snapshot.place = .node (.folder folder) → folder.Tidy

/-- No file has a name that could be taken for a pattern. -/
def Literal (snapshot : Snapshot) : Prop :=
  ∀ folder, snapshot.place = .node (.folder folder) → folder.Literal

/-- The name that the listing of a directory gives to a name in it. -/
def listedAs (snapshot : Snapshot) (names : List String) (name : String) : String :=
  match snapshot with
  | disk _ => name
  | revision _ => Source.Revision.listedName names name

/-- The path is listed as it is. On disk every one is. -/
def Shows (snapshot : Snapshot) (path : String) : Prop :=
  snapshot.isRevision = true → Source.Listed.isShown path = true

/-- What the names lead to holds these entries. -/
def held (snapshot : Snapshot) (names : List String) : List Entry :=
  match snapshot.reach names with
  | .node (.folder folder) => folder.entries
  | _ => []

/-- What holds of the root and passes from a folder to those in it holds of all that is reached. -/
theorem reach_inherits {names : List String} {last : Folder} {motive : Folder → Prop}
    (led : snapshot.reach names = .node (.folder last))
    (root : ∀ folder, snapshot.place = .node (.folder folder) → motive folder)
    (below : ∀ name top inside, top.find? name = some (.folder inside) → motive top →
      motive inside) : motive last := by
  unfold Snapshot.reach at led
  split at led
  · rename_i node place
    cases node with
    | file content => cases names <;> cases led
    | folder top =>
        refine Node.walk_induction (motive := fun _ top => motive top → motive last) led ?_ nofun
          ?_ (root top place)
        · rintro _ ⟨⟩ held
          exact held
        · exact fun name rest top inside found ih held => ih (below name top inside found held)
  · rename_i other
    exact absurd led (other _)

theorem Tidy.reach (tidy : snapshot.Tidy) {names : List String} {folder : Folder}
    (led : snapshot.reach names = .node (.folder folder)) : folder.Tidy :=
  reach_inherits led tidy fun _ _ _ found tidy => tidy.below found

/-- A directory inside the tree is listed, if a file system could hold it. -/
theorem entries_inside (inside : Inside directory) (whole : '\x00' ∉ directory.toList) :
    ∃ entries, snapshot.entries directory = .ok entries := by
  cases snapshot with
  | disk view =>
      simp only [Snapshot.entries, Source.Disk.entries, Source.resolve_inside inside]
      rw [if_neg (by simpa using whole)]
      split <;> exact ⟨_, rfl⟩
  | revision view =>
      simp only [Snapshot.entries, Source.Revision.entries,
        Source.checkRelative_inside inside whole]
      split <;> exact ⟨_, rfl⟩

/-- What is listed of a directory is what it holds, under the names that listings give. -/
theorem entries_eq_ok (listed : snapshot.entries directory = .ok entries) :
    Inside directory ∧ '\x00' ∉ directory.toList ∧
      entries.Perm ((snapshot.held (Path.steps directory)).map fun entry =>
        { entry with name := snapshot.listedAs (Path.steps directory) entry.name }) := by
  unfold held
  cases snapshot with
  | disk view =>
      have same : (Snapshot.disk view).reach (Path.steps directory) =
        view.reach (Path.steps directory) := rfl
      rw [same]
      simp only [Snapshot.entries, Source.Disk.entries] at listed
      rcases resolve_cases directory with ⟨resolved, inside⟩ | ⟨resolved, -⟩ <;>
        simp only [resolved] at listed
      · split at listed
        · cases listed
        · rename_i whole
          refine ⟨inside, by simpa using whole, ?_⟩
          split at listed <;> cases listed <;> simp [listedAs, *]
      · cases listed
  | revision view =>
      have same : (Snapshot.revision view).reach (Path.steps directory) =
        view.reach (Path.steps directory) := rfl
      rw [same]
      simp only [Snapshot.entries, Source.Revision.entries] at listed
      split at listed
      · cases listed
      · rename_i checked
        have accepted : Inside directory ∧ '\x00' ∉ directory.toList := by
          unfold Source.Revision.checkRelative at checked
          split at checked
          · cases checked
          · rename_i inside
            split at checked
            · cases checked
            · rename_i whole
              exact ⟨by simpa [Inside] using inside, by simpa using whole⟩
        refine ⟨accepted.1, accepted.2, ?_⟩
        cases led : view.reach (Path.steps directory) with
        | node node =>
            cases node with
            | folder folder =>
                simp only [led] at listed
                cases listed
                exact List.mergeSort_perm _ _
            | file content =>
                simp only [led] at listed
                cases listed
                exact .nil
        | nothing | blocked =>
            simp only [led] at listed
            cases listed
            exact .nil

/-- What is held is such as a file system can hold, in a tidy tree. -/
theorem Tidy.held (tidy : snapshot.Tidy) {names : List String} {entry : Entry}
    (member : entry ∈ snapshot.held names) : Path.Holdable entry.name := by
  unfold Snapshot.held at member
  split at member
  · rename_i led
    exact (tidy.reach led).name member
  · cases member

theorem Tidy.held_nodup (tidy : snapshot.Tidy) (names : List String) :
    ((snapshot.held names).map (·.name)).Nodup := by
  unfold Snapshot.held
  split
  · rename_i led
    exact (tidy.reach led).names_nodup
  · exact .nil

/-- Names that lead further lead to a folder. -/
theorem reach_folder {names more : List String} {node : Node} (filled : more ≠ [])
    (led : snapshot.reach (names ++ more) = .node node) :
    ∃ folder, snapshot.reach names = .node (.folder folder) := by
  rw [reach_append] at led
  obtain ⟨name, rest, rfl⟩ := List.exists_cons_of_ne_nil filled
  split at led
  · rename_i last _
    cases last with
    | file content => cases led
    | folder folder => exact ⟨folder, by assumption⟩
  · rename_i other
    exact absurd led (other _)

/-- Names that lead to a folder lead through folders. -/
theorem reach_through {names more : List String} {last : Folder}
    (led : snapshot.reach (names ++ more) = .node (.folder last)) :
    ∃ folder, snapshot.reach names = .node (.folder folder) := by
  cases more with
  | nil => exact ⟨last, by simpa using led⟩
  | cons name rest => exact reach_folder (List.cons_ne_nil _ _) led

/-- What holds entries is a folder. -/
theorem reach_of_held {names : List String} {entry : Entry}
    (member : entry ∈ snapshot.held names) :
    ∃ folder, snapshot.reach names = .node (.folder folder) ∧ entry ∈ folder.entries := by
  unfold Snapshot.held at member
  split at member
  · exact ⟨_, by assumption, member⟩
  · cases member

theorem Orderly.held (orderly : snapshot.Orderly) {names : List String}
    (member : ⟨name, true⟩ ∈ snapshot.held names) : Path.isWildcard name = false := by
  obtain ⟨folder, led, within⟩ := reach_of_held member
  exact (orderly.reach led).not_isWildcard within rfl

theorem Literal.held (literal : snapshot.Literal) {names : List String}
    (member : ⟨name, false⟩ ∈ snapshot.held names) : Path.isWildcard name = false := by
  obtain ⟨folder, led, within⟩ := reach_of_held member
  have inherited : folder.Literal :=
    reach_inherits led literal fun _ _ _ found literal => literal.find_folder found
  exact inherited.not_isWildcard within

/-- What is listed as it is lies in what is. -/
theorem Shows.start {names more : List String} (filled : names ≠ [])
    (shows : snapshot.Shows (Path.ofSegments (names ++ more))) :
    snapshot.Shows (Path.ofSegments names) := by
  intro revision
  have plain := List.all_eq_true.mp (shows revision)
  refine List.all_eq_true.mpr fun c member => plain c ?_
  cases more with
  | nil => simpa using member
  | cons name rest =>
      rw [Path.ofSegments, String.intercalate_append_of_ne_nil filled (List.cons_ne_nil _ _)]
      simp only [String.toList_append, List.mem_append]
      exact .inl (.inl member)

theorem Shows.beside {names : List String} {first second : String} (filled : names ≠ [])
    (shows : snapshot.Shows (Path.ofSegments (names ++ [first])))
    (plain : Source.Listed.isShown second = true) :
    snapshot.Shows (Path.ofSegments (names ++ [second])) := by
  intro revision
  have start := List.all_eq_true.mp (shows.start filled revision)
  refine List.all_eq_true.mpr fun c member => ?_
  rw [Path.ofSegments, String.intercalate_append_of_ne_nil filled (List.cons_ne_nil _ _)] at member
  simp only [String.toList_append, List.mem_append, String.intercalate_singleton] at member
  rcases member with (inside | slash) | last
  · exact start c inside
  · obtain rfl : c = '/' := by simpa using slash
    decide
  · exact List.all_eq_true.mp plain c last

theorem held_of_reach {names : List String} {node : Node}
    (led : snapshot.reach (names ++ [name]) = .node node) :
    ⟨name, node.isFolder⟩ ∈ snapshot.held names := by
  obtain ⟨folder, inner⟩ := reach_folder (List.cons_ne_nil _ _) led
  have found : folder.find? name = some node := by
    simp only [reach_append, inner, Node.walk] at led
    split at led
    · cases led
    · rename_i next found
      cases led
      exact found
  unfold held
  rw [inner]
  exact Folder.mem_of_find found

theorem Tidy.reach_of_held (tidy : snapshot.Tidy) {names : List String}
    (member : ⟨name, false⟩ ∈ snapshot.held names) :
    ∃ content, snapshot.reach (names ++ [name]) = .node (.file content) := by
  unfold Snapshot.held at member
  split at member
  · rename_i folder led
    obtain ⟨content, found⟩ := (tidy.reach led).find_file member
    exact ⟨content, by simp [reach_append, led, Node.walk, found]⟩
  · cases member

theorem listedAs_inj {names : List String} {first second : String} (one : Path.IsName first)
    (two : Path.IsName second)
    (same : snapshot.listedAs names first = snapshot.listedAs names second) : first = second := by
  cases snapshot with
  | disk view => exact same
  | revision view => exact Source.Revision.listedName_inj one two same

/-- No name is listed twice in a directory. -/
theorem Tidy.entries_nodup (tidy : snapshot.Tidy)
    (listed : snapshot.entries directory = .ok entries) : (entries.map (·.name)).Nodup := by
  obtain ⟨-, -, shuffled⟩ := entries_eq_ok listed
  rw [(shuffled.map (·.name)).nodup_iff, List.map_map]
  have named := List.pairwise_map.mp (tidy.held_nodup (Path.steps directory))
  refine List.pairwise_map.mpr (named.imp_of_mem ?_)
  intro first second one two apart same
  exact apart (listedAs_inj (tidy.held one).1 (tidy.held two).1 same)

/-- Names are listed in ascending order. -/
theorem Tidy.entries_ascend (tidy : snapshot.Tidy)
    (listed : snapshot.entries directory = .ok entries) :
    (entries.map (·.name)).Pairwise (· < ·) := by
  have distinct := tidy.entries_nodup listed
  have sorted (list : List Entry) :
      (list.mergeSort fun first second => decide (first.name ≤ second.name)).Pairwise
        fun first second => decide (first.name ≤ second.name) = true :=
    List.pairwise_mergeSort (fun _ _ _ => by simpa using le_trans)
      (fun first second => by simpa using le_total first.name second.name) list
  cases snapshot with
  | disk view =>
      simp only [Snapshot.entries, Source.Disk.entries] at listed
      split at listed
      · cases listed
      · split at listed
        · cases listed
        · split at listed <;> cases listed
          · rename_i folder led
            exact List.pairwise_map.mpr (tidy.reach led).ascending
          · exact .nil
  | revision view =>
      simp only [Snapshot.entries, Source.Revision.entries] at listed
      split at listed
      · cases listed
      · split at listed <;> cases listed
        · refine List.Pairwise.imp₂ (fun _ _ => lt_of_le_of_ne) (List.pairwise_map.mpr ?_) distinct
          exact (sorted _).imp of_decide_eq_true
        · exact .nil

/-- What is listed is such as a file system can hold. -/
theorem Tidy.listed_name (tidy : snapshot.Tidy) (listed : snapshot.entries directory = .ok entries)
    {entry : Entry} (member : entry ∈ entries) : Path.Holdable entry.name := by
  obtain ⟨-, -, shuffled⟩ := entries_eq_ok listed
  obtain ⟨actual, held, rfl⟩ := List.mem_map.mp (shuffled.mem_iff.mp member)
  obtain ⟨proper, whole⟩ := tidy.held held
  cases snapshot with
  | disk view => exact ⟨proper, whole⟩
  | revision view =>
      simp only [listedAs]
      exact ⟨Source.Revision.listedName_isName _ proper,
        Source.Revision.not_mem_listedName (by decide) _ proper whole⟩

theorem folders_eq_ok {accepts : String → Bool} {found : List FileEntry}
    (listed : snapshot.folders directory accepts = .ok found) :
    ∃ entries, snapshot.entries directory = .ok entries ∧ found.map (·.name) =
      (entries.filter fun entry => entry.isFolder && accepts entry.name).map (·.name) := by
  obtain ⟨entries, shown, rfl⟩ := Outcome.map_eq_ok.mp listed
  exact ⟨entries, shown, by simp [Function.comp_def]⟩

theorem folders_nodup (tidy : snapshot.Tidy) {accepts : String → Bool} {found : List FileEntry}
    (listed : snapshot.folders directory accepts = .ok found) : (found.map (·.name)).Nodup := by
  obtain ⟨entries, shown, same⟩ := folders_eq_ok listed
  rw [same]
  exact (tidy.entries_nodup shown).sublist (List.filter_sublist.map _)

theorem folders_ascend (tidy : snapshot.Tidy) {accepts : String → Bool} {found : List FileEntry}
    (listed : snapshot.folders directory accepts = .ok found) :
    (found.map (·.name)).Pairwise (· < ·) := by
  obtain ⟨entries, shown, same⟩ := folders_eq_ok listed
  rw [same]
  exact (tidy.entries_ascend shown).sublist (List.filter_sublist.map _)

theorem files_nodup (tidy : snapshot.Tidy) {accepts : String → Bool} {found : List FileEntry}
    (listed : snapshot.files directory accepts = .ok found) : (found.map (·.name)).Nodup := by
  obtain ⟨entries, shown, rfl⟩ := Outcome.map_eq_ok.mp listed
  have same : ((entries.filter fun entry => !entry.isFolder && accepts entry.name).map fun entry =>
      (⟨Path.join directory entry.name, entry.name⟩ : FileEntry)).map (·.name) =
      (entries.filter fun entry => !entry.isFolder && accepts entry.name).map (·.name) := by
    simp [Function.comp_def]
  rw [same]
  exact (tidy.entries_nodup shown).sublist (List.filter_sublist.map _)

theorem Tidy.folder_holdable (tidy : snapshot.Tidy) {accepts : String → Bool}
    {found : List FileEntry} (listed : snapshot.folders directory accepts = .ok found)
    (member : name ∈ found.map (·.name)) : Path.Holdable name := by
  obtain ⟨entries, shown, same⟩ := folders_eq_ok listed
  rw [same] at member
  obtain ⟨entry, kept, rfl⟩ := List.mem_map.mp member
  exact tidy.listed_name shown (List.mem_of_mem_filter kept)

theorem listedAs_shows {names : List String} (proper : Path.IsName name)
    (shows : snapshot.Shows (Path.ofSegments (names ++ [name]))) :
    snapshot.listedAs names name = name := by
  cases snapshot with
  | disk view => rfl
  | revision view => exact Source.Revision.listedName_shown proper (shows rfl)

/-- A name that does not end as escaped forms do is listed as it is. -/
theorem shows_of_listedAs {names : List String} (proper : Path.IsName name)
    (plain : (snapshot.listedAs names name).toList.getLast? ≠ some '"') :
    snapshot.listedAs names name = name ∧ snapshot.Shows (Path.ofSegments (names ++ [name])) := by
  cases snapshot with
  | disk view => exact ⟨rfl, nofun⟩
  | revision view =>
      refine ⟨Source.Revision.eq_of_listedName proper plain, fun _ => ?_⟩
      cases shown : Source.Listed.isShown (Path.ofSegments (names ++ [name])) with
      | true => rfl
      | false =>
          rw [listedAs, Source.Revision.listedName_quoted proper shown] at plain
          simp at plain

theorem eq_of_shows {names : List String} (proper : Path.IsName name)
    (shows : snapshot.Shows (Path.ofSegments (names ++ [snapshot.listedAs names name]))) :
    snapshot.listedAs names name = name := by
  cases snapshot with
  | disk view => rfl
  | revision view =>
      refine Source.Revision.eq_of_listedName proper fun last => ?_
      exact Source.Revision.not_quoted_of_shown (shows rfl) (List.mem_of_getLast? last)

/-- A name that is listed as it is belongs to what the directory holds, and to nothing else. -/
theorem mem_entries_iff (tidy : snapshot.Tidy) (listed : snapshot.entries directory = .ok entries)
    {isFolder : Bool} (shows : snapshot.Shows (Path.ofSegments (Path.steps directory ++ [name]))) :
    ⟨name, isFolder⟩ ∈ entries ↔ ⟨name, isFolder⟩ ∈ snapshot.held (Path.steps directory) := by
  obtain ⟨-, -, shuffled⟩ := entries_eq_ok listed
  rw [shuffled.mem_iff]
  constructor
  · intro member
    obtain ⟨⟨actual, sort⟩, held, same⟩ := List.mem_map.mp member
    obtain ⟨rfl, rfl⟩ := Entry.mk.inj same
    rw [eq_of_shows (tidy.held held).1 shows]
    exact held
  · intro held
    refine List.mem_map.mpr ⟨_, held, ?_⟩
    rw [listedAs_shows (tidy.held held).1 shows]

/-- A folder that is listed as it is belongs to those that the directory holds. -/
theorem mem_folders_iff (tidy : snapshot.Tidy) {accepts : String → Bool} {found : List FileEntry}
    (listed : snapshot.folders directory accepts = .ok found)
    (shows : snapshot.Shows (Path.ofSegments (Path.steps directory ++ [name]))) :
    name ∈ found.map (·.name) ↔
      ⟨name, true⟩ ∈ snapshot.held (Path.steps directory) ∧ accepts name = true := by
  obtain ⟨entries, shown, same⟩ := folders_eq_ok listed
  rw [same, ← mem_entries_iff tidy shown shows]
  simp only [List.mem_map, List.mem_filter, Bool.and_eq_true]
  constructor
  · rintro ⟨⟨_, _⟩, ⟨member, rfl, accepted⟩, rfl⟩
    exact ⟨member, accepted⟩
  · rintro ⟨member, accepted⟩
    exact ⟨_, ⟨member, rfl, accepted⟩, rfl⟩

end Snapshot

end Rollout
