import Mathlib.Algebra.GroupWithZero.Nat
import Rollout.Glob
import Rollout.Proofs.Source.Listing

/-!
A listing to full depth repeats the listing of one directory: it shows the files there, and lists
each of the folders that are shown there. So it fails only where one of them does. It counts the
files that there are below the directory just when all of them are listed as they are.
-/

namespace Rollout

namespace Folder

/-- The files at any depth, each by the names that lead to it. -/
def files : Folder → List (List String)
  | nil => []
  | file name _ beside => [name] :: beside.files
  | folder name below beside => below.files.map (name :: ·) ++ beside.files

/-- The files that a name of the folder leads to. -/
def filesAt (top : Folder) (name : String) : List (List String) :=
  match top.find? name with
  | some (.file _) => [[name]]
  | some (.folder below) => below.files.map (name :: ·)
  | none => []

/-- No name at any depth has a line break. -/
def Unbroken : Folder → Prop
  | nil => True
  | file name _ beside => '\n' ∉ name.toList ∧ beside.Unbroken
  | folder name below beside => '\n' ∉ name.toList ∧ below.Unbroken ∧ beside.Unbroken

def decideUnbroken : (top : Folder) → Decidable top.Unbroken
  | nil => isTrue trivial
  | file _ _ beside =>
      have := decideUnbroken beside
      inferInstanceAs (Decidable (_ ∧ _))
  | folder _ below beside =>
      have := decideUnbroken below
      have := decideUnbroken beside
      inferInstanceAs (Decidable (_ ∧ _ ∧ _))

instance (top : Folder) : Decidable top.Unbroken := decideUnbroken top

theorem Unbroken.name {top : Folder} (unbroken : top.Unbroken) {entry : Entry}
    (member : entry ∈ top.entries) : '\n' ∉ entry.name.toList := by
  induction top with
  | nil => cases member
  | file first content beside ih =>
      rcases List.mem_cons.mp member with rfl | later
      · exact unbroken.1
      · exact ih unbroken.2 later
  | folder first below beside _ ih =>
      rcases List.mem_cons.mp member with rfl | later
      · exact unbroken.1
      · exact ih unbroken.2.2 later

theorem Unbroken.below {top below : Folder} {name : String} (unbroken : top.Unbroken)
    (found : top.find? name = some (.folder below)) : below.Unbroken := by
  refine find_induction (motive := fun top => top.Unbroken → below.Unbroken) found ?_ ?_ ?_
    unbroken
  · exact fun beside unbroken => unbroken.2.1
  · exact fun first content beside ih unbroken => ih unbroken.2
  · exact fun first inside beside ih unbroken => ih unbroken.2.2

theorem files_ne_nil {top : Folder} {names : List String} (member : names ∈ top.files) :
    names ≠ [] := by
  induction top with
  | nil => cases member
  | file first content beside ih =>
      rcases List.mem_cons.mp member with rfl | later
      · exact List.cons_ne_nil _ _
      · exact ih later
  | folder first below beside _ ih =>
      rcases List.mem_append.mp member with here | later
      · obtain ⟨rest, -, rfl⟩ := List.mem_map.mp here
        exact List.cons_ne_nil _ _
      · exact ih later

theorem Tidy.files_isName {top : Folder} (tidy : top.Tidy) {names : List String}
    (member : names ∈ top.files) {name : String} (among : name ∈ names) : Path.IsName name := by
  induction top generalizing names with
  | nil => cases member
  | file first content beside ih =>
      rcases List.mem_cons.mp member with rfl | later
      · exact List.mem_singleton.mp among ▸ tidy.1
      · exact ih tidy.2.2.2 later among
  | folder first below beside inner ih =>
      rcases List.mem_append.mp member with here | later
      · obtain ⟨rest, within, rfl⟩ := List.mem_map.mp here
        rcases List.mem_cons.mp among with rfl | deeper
        · exact tidy.1
        · exact inner tidy.2.2.2.1 within deeper
      · exact ih tidy.2.2.2.2 later among

/-- The files below a folder are those that its names lead to, name by name. -/
theorem Tidy.files_eq {top : Folder} (tidy : top.Tidy) :
    top.files = top.entries.flatMap fun entry => top.filesAt entry.name := by
  -- the first name is not among the rest, so that the rest leads to the same files without it
  have rest {first : String} {node : Node} {beside : Folder}
      (least : ∀ entry ∈ beside.entries, first < entry.name) :
      (beside.entries.flatMap fun entry => (cons first node beside).filesAt entry.name) =
        beside.entries.flatMap fun entry => beside.filesAt entry.name := by
    refine List.flatMap_congr fun entry member => ?_
    unfold filesAt
    rw [find_cons, if_neg (ne_of_lt (least entry member))]
  induction top using cons_induction with
  | empty => rfl
  | more first node beside ih =>
      obtain ⟨-, -, least, -, tidy⟩ := tidy_cons.mp tidy
      rw [entries_cons, List.flatMap_cons, rest least, ← ih tidy, filesAt, find_cons, if_pos rfl]
      cases node <;> rfl

theorem mem_filesAt {top : Folder} {name : String} {names : List String}
    (among : names ∈ top.filesAt name) : ∃ rest, names = name :: rest := by
  unfold filesAt at among
  split at among
  · exact ⟨[], List.mem_singleton.mp among⟩
  · obtain ⟨rest, -, rfl⟩ := List.mem_map.mp among
    exact ⟨rest, rfl⟩
  · cases among

theorem mem_files_of_filesAt {top : Folder} (tidy : top.Tidy) {entry : Entry}
    (member : entry ∈ top.entries) {names : List String} (among : names ∈ top.filesAt entry.name) :
    names ∈ top.files := by
  rw [tidy.files_eq]
  exact List.mem_flatMap.mpr ⟨entry, member, among⟩

end Folder

namespace Snapshot

variable {snapshot : Snapshot} {directory name : String} {accepts : String → Bool}
  {entries : List Entry}

instance (path : String) : Decidable (snapshot.Shows path) :=
  inferInstanceAs (Decidable (_ → _))

/-- The files of a directory as they are listed. -/
def filesIn (directory : String) (accepts : String → Bool) (entries : List Entry) :
    List FileEntry :=
  (entries.filter fun entry => !entry.isFolder && accepts entry.name).map fun entry =>
    ⟨Path.join directory entry.name, entry.name⟩

/-- The folders of a directory as they are listed. -/
def foldersIn (directory : String) (entries : List Entry) : List FileEntry :=
  (entries.filter (·.isFolder)).map fun entry => ⟨Path.join directory entry.name, entry.name⟩

theorem listEach_congr {first second : String → Except SourceError Listing}
    {directories : List String}
    (same : ∀ directory ∈ directories, first directory = second directory) :
    listEach first directories = listEach second directories := by
  induction directories with
  | nil => rfl
  | cons directory rest ih =>
      obtain ⟨here, later⟩ := List.forall_mem_cons.mp same
      rw [listEach, listEach, here, ih later]

/-- A folder that is listed leads below what the directory is, if it leads anywhere. -/
theorem Tidy.lower (tidy : snapshot.Tidy) (listed : snapshot.entries directory = .ok entries)
    (member : ⟨name, true⟩ ∈ entries) {inner : Folder}
    (led : snapshot.reach (Path.steps (Path.join directory name)) = .node (.folder inner)) :
    ∃ folder, snapshot.reach (Path.steps directory) = .node (.folder folder) ∧
      folder.find? name = some (.folder inner) := by
  have proper := (tidy.listed_name listed member).1
  rw [Path.steps_join proper] at led
  obtain ⟨folder, outer⟩ := reach_folder (List.cons_ne_nil _ _) led
  refine ⟨folder, outer, ?_⟩
  simp only [reach_append, outer, Node.walk] at led
  split at led
  · cases led
  · rename_i node found
    cases led
    exact found

/-- There are no folders in what has no height. -/
theorem Tidy.foldersIn_nil (tidy : snapshot.Tidy)
    (listed : snapshot.entries directory = .ok entries)
    (flat : ∀ folder, snapshot.reach (Path.steps directory) = .node (.folder folder) →
      folder.height = 0) : foldersIn directory entries = [] := by
  obtain ⟨-, -, shuffled⟩ := entries_eq_ok listed
  refine List.map_eq_nil_iff.mpr (List.filter_eq_nil_iff.mpr fun entry member isFolder => ?_)
  obtain ⟨⟨name, sort⟩, held, rfl⟩ := List.mem_map.mp (shuffled.mem_iff.mp member)
  obtain rfl : sort = true := isFolder
  obtain ⟨folder, led, within⟩ := Snapshot.reach_of_held held
  obtain ⟨below, found⟩ := (tidy.reach led).find_folder within
  have lower := Folder.height_of_find found
  have none := flat folder led
  omega

theorem listTo_succ (listed : snapshot.entries directory = .ok entries) (depth : Nat) :
    snapshot.listTo accepts (depth + 1) directory =
      (listEach (snapshot.listTo accepts depth) ((foldersIn directory entries).map (·.path))).map
        fun listings => .mk directory (Path.baseName directory)
          (filesIn directory accepts entries) listings := by
  rw [listTo, listed]
  rfl

theorem listTo_flat (listed : snapshot.entries directory = .ok entries)
    (flat : foldersIn directory entries = []) (depth : Nat) :
    snapshot.listTo accepts depth directory =
      .ok (.mk directory (Path.baseName directory) (filesIn directory accepts entries) []) := by
  cases depth with
  | zero =>
      rw [listTo, listed]
      rfl
  | succ depth =>
      rw [listTo_succ listed, flat]
      rfl

/-- More depth than there is below a directory shows no more of it. -/
theorem Tidy.listTo_stable (tidy : snapshot.Tidy) {depth more : Nat}
    (deep : ∀ folder, snapshot.reach (Path.steps directory) = .node (.folder folder) →
      folder.height ≤ depth ∧ folder.height ≤ more) :
    snapshot.listTo accepts depth directory = snapshot.listTo accepts more directory := by
  -- where either depth is used up, there is no folder left that the other could go into
  induction depth generalizing directory more with
  | zero =>
      cases listed : snapshot.entries directory with
      | error error => rw [listTo, listTo, listed]
      | ok entries =>
          have flat := tidy.foldersIn_nil listed fun folder led =>
            Nat.le_zero.mp (deep folder led).1
          rw [listTo_flat listed flat, listTo_flat listed flat]
  | succ depth ih =>
      cases listed : snapshot.entries directory with
      | error error => rw [listTo, listTo, listed]
      | ok entries =>
          obtain _ | more := more
          · have flat := tidy.foldersIn_nil listed fun folder led =>
              Nat.le_zero.mp (deep folder led).2
            rw [listTo_flat listed flat, listTo_flat listed flat]
          · rw [listTo_succ listed, listTo_succ listed]
            refine congrArg (Except.map _) (listEach_congr fun below among => ih ?_)
            intro inner led
            obtain ⟨name, member, rfl⟩ := mem_below among
            obtain ⟨folder, outer, found⟩ := tidy.lower listed member led
            have lower := Folder.height_of_find found
            have bounds := deep folder outer
            omega

theorem height_of_reach {names : List String} {folder : Folder}
    (led : snapshot.reach names = .node (.folder folder)) : folder.height ≤ snapshot.height := by
  unfold Snapshot.reach at led
  split at led
  · rename_i node place
    cases node with
    | file content => cases names <;> cases led
    | folder top =>
        rw [height_of_place place]
        exact Folder.height_of_walk led
  · rename_i other
    exact absurd led (other _)

/-- A listing to full depth is made of the listings to full depth of the folders that the directory
shows. -/
theorem Tidy.list_eq (tidy : snapshot.Tidy) (listed : snapshot.entries directory = .ok entries) :
    snapshot.list directory accepts =
      (listEach (snapshot.list · accepts) ((foldersIn directory entries).map (·.path))).map
        fun listings => .mk directory (Path.baseName directory)
          (filesIn directory accepts entries) listings := by
  have once : snapshot.list directory accepts =
      snapshot.listTo accepts (snapshot.height + 1) directory :=
    tidy.listTo_stable fun folder led =>
      ⟨height_of_reach led, (height_of_reach led).trans (Nat.le_succ _)⟩
  rw [once, listTo_succ listed]
  rfl

/-- What is listed as a folder can be listed in its turn. -/
theorem Tidy.entries_below (tidy : snapshot.Tidy)
    (listed : snapshot.entries directory = .ok entries) {entry : Entry} (member : entry ∈ entries) :
    ∃ others, snapshot.entries (Path.join directory entry.name) = .ok others := by
  obtain ⟨inside, whole, -⟩ := entries_eq_ok listed
  obtain ⟨proper, free⟩ := tidy.listed_name listed member
  refine entries_inside (Path.inside_join inside proper) fun within => ?_
  obtain ⟨step, among, broken⟩ := (Path.mem_iff_steps (by decide) (by decide)).mp within
  rw [Path.steps_join proper] at among
  rcases List.mem_append.mp among with outer | last
  · exact whole ((Path.mem_iff_steps (by decide) (by decide)).mpr ⟨step, outer, broken⟩)
  · exact free (List.mem_singleton.mp last ▸ broken)

/-- A listing is made wherever the directory shows its entries. -/
theorem Tidy.list_ok_iff (tidy : snapshot.Tidy) :
    (∃ listing, snapshot.list directory accepts = .ok listing) ↔
      ∃ entries, snapshot.entries directory = .ok entries := by
  constructor
  · rintro ⟨listing, listed⟩
    obtain ⟨entries, shown, -⟩ := listTo_eq_ok listed
    exact ⟨entries, shown⟩
  · rintro ⟨entries, listed⟩
    unfold list
    induction snapshot.height generalizing directory entries with
    | zero =>
        rw [listTo, listed]
        exact ⟨_, rfl⟩
    | succ depth ih =>
        obtain ⟨listings, all⟩ : ∃ listings, listEach (snapshot.listTo accepts depth)
            ((foldersIn directory entries).map (·.path)) = .ok listings := by
          refine listEach_ok fun below among => ?_
          obtain ⟨name, member, rfl⟩ := mem_below among
          obtain ⟨others, shown⟩ := tidy.entries_below listed member
          exact ih others shown
        rw [listTo_succ listed, all]
        exact ⟨_, rfl⟩

/-- The directories that are found when folders are listed again and again, from the first one. -/
inductive Below (snapshot : Snapshot) (directory : String) : String → Prop
  | here : Below snapshot directory directory
  | next {last : String} {found : List FileEntry} {entry : FileEntry}
      (above : Below snapshot directory last)
      (listed : snapshot.folders last Glob.anyName = .ok found) (member : entry ∈ found) :
      Below snapshot directory entry.path

/-- The files and the folders of the directory can be listed. -/
def Listable (snapshot : Snapshot) (accepts : String → Bool) (directory : String) : Prop :=
  (∃ files, snapshot.files directory accepts = .ok files) ∧
    ∃ folders, snapshot.folders directory Glob.anyName = .ok folders

theorem listable_iff : snapshot.Listable accepts directory ↔
    ∃ entries, snapshot.entries directory = .ok entries := by
  unfold Listable files folders
  cases snapshot.entries directory <;> simp [Except.map]

/-- A listing is made just when all listings of single directories below it are. -/
theorem Tidy.list_ok_iff_below (tidy : snapshot.Tidy) :
    (∃ listing, snapshot.list directory accepts = .ok listing) ↔
      ∀ below, snapshot.Below directory below → snapshot.Listable accepts below := by
  rw [tidy.list_ok_iff]
  constructor
  · intro listed below found
    rw [listable_iff]
    induction found with
    | here => exact listed
    | next above shown member ih =>
        obtain ⟨entries, one, rfl⟩ := Outcome.map_eq_ok.mp shown
        obtain ⟨entry, kept, rfl⟩ := List.mem_map.mp member
        exact tidy.entries_below one (List.mem_of_mem_filter kept)
  · intro each
    exact listable_iff.mp (each directory .here)

theorem fileCountAll_eq (listings : List Listing) :
    Listing.fileCountAll listings = (listings.map (·.fileCount)).sum := by
  induction listings with
  | nil => rfl
  | cons listing rest ih => rw [Listing.fileCountAll, ih, List.map_cons, List.sum_cons]

/-- How many files the listing of a directory counts. -/
def counted (snapshot : Snapshot) (accepts : String → Bool) (directory : String) : Nat :=
  match snapshot.list directory accepts with
  | .ok listing => listing.fileCount
  | .error _ => 0

/-- What an entry of a directory counts for. -/
def worth (snapshot : Snapshot) (accepts : String → Bool) (directory : String) (entry : Entry) :
    Nat :=
  if entry.isFolder then snapshot.counted accepts (Path.join directory entry.name)
  else if accepts entry.name then 1 else 0

theorem counted_each {directories : List String} {listings : List Listing}
    (each : List.Forall₂ (fun below listing => snapshot.list below accepts = .ok listing)
      directories listings) :
    listings.map (·.fileCount) = directories.map (snapshot.counted accepts) := by
  induction each with
  | nil => rfl
  | cons listed _ ih => rw [List.map_cons, List.map_cons, ih, counted, listed]

/-- The entries of a directory share its count. -/
theorem Tidy.counted_eq (tidy : snapshot.Tidy) (listed : snapshot.entries directory = .ok entries) :
    snapshot.counted accepts directory =
      (entries.map (snapshot.worth accepts directory)).sum := by
  obtain ⟨listing, made⟩ := tidy.list_ok_iff.mpr ⟨entries, listed⟩
  have whole : snapshot.counted accepts directory = listing.fileCount := by rw [counted, made]
  rw [tidy.list_eq listed] at made
  obtain ⟨listings, each, rfl⟩ := Outcome.map_eq_ok.mp made
  rw [whole, Listing.fileCount, fileCountAll_eq, counted_each (listEach_eq_ok each)]
  clear each made whole listed
  unfold filesIn foldersIn
  induction entries with
  | nil => rfl
  | cons entry rest ih =>
      simp only [List.filter_cons, List.map_cons, List.sum_cons, worth] at ih ⊢
      cases entry.isFolder <;> cases accepts entry.name <;> simp_all <;> omega

theorem Tidy.counted_missing (tidy : snapshot.Tidy)
    (missing : ∀ folder, snapshot.reach (Path.steps directory) ≠ .node (.folder folder)) :
    snapshot.counted accepts directory = 0 := by
  cases listed : snapshot.entries directory with
  | error error =>
      have none : ¬ ∃ listing, snapshot.list directory accepts = .ok listing := by
        rw [tidy.list_ok_iff, listed]
        nofun
      unfold counted
      split <;> rename_i made
      · exact absurd ⟨_, made⟩ none
      · rfl
  | ok entries =>
      obtain ⟨-, -, shuffled⟩ := entries_eq_ok listed
      have empty : snapshot.held (Path.steps directory) = [] := by
        unfold Snapshot.held
        split <;> rename_i led
        · exact absurd led (missing _)
        · rfl
      rw [empty] at shuffled
      rw [tidy.counted_eq listed, List.perm_nil.mp shuffled]
      rfl

/-- Is the file listed as it is, and its name accepted? -/
def isCounted (snapshot : Snapshot) (accepts : String → Bool) (names path : List String) : Bool :=
  snapshot.Shows (Path.ofSegments (names ++ path)) && accepts (path.getLastD "")

/-- No file below the names has a listed form that is accepted in place of its name. -/
def Quiet (snapshot : Snapshot) (accepts : String → Bool) (names : List String) (folder : Folder) :
    Prop :=
  ∀ path ∈ folder.files, ¬ snapshot.Shows (Path.ofSegments (names ++ path)) →
    accepts (snapshot.listedAs (names ++ path.dropLast) (path.getLastD "")) = false

theorem isCounted_cons (names : List String) (name : String) {path : List String}
    (filled : path ≠ []) : snapshot.isCounted accepts names (name :: path) =
      snapshot.isCounted accepts (names ++ [name]) path := by
  obtain ⟨first, rest, rfl⟩ := List.exists_cons_of_ne_nil filled
  simp [isCounted]

/-- Nothing is counted below a name that is not listed as it is. -/
theorem not_isCounted {names : List String}
    (hidden : ¬ snapshot.Shows (Path.ofSegments (names ++ [name]))) (path : List String) :
    snapshot.isCounted accepts names (name :: path) = false := by
  have hiddenBelow : ¬ snapshot.Shows (Path.ofSegments (names ++ name :: path)) := by
    intro shows
    rw [List.append_cons] at shows
    exact hidden (shows.start (by simp))
  simp [isCounted, hiddenBelow]

theorem Quiet.below {names : List String} {folder below : Folder} (tidy : folder.Tidy)
    (quiet : snapshot.Quiet accepts names folder)
    (found : folder.find? name = some (.folder below)) :
    snapshot.Quiet accepts (names ++ [name]) below := by
  intro path among hidden
  have deeper : name :: path ∈ folder.files := by
    refine Folder.mem_files_of_filesAt tidy (Folder.mem_of_find found) ?_
    rw [Folder.filesAt, found]
    exact List.mem_map_of_mem among
  obtain ⟨first, rest, rfl⟩ := List.exists_cons_of_ne_nil (Folder.files_ne_nil among)
  simpa using quiet _ deeper (by simpa using hidden)

theorem Tidy.whole_of_reach (tidy : snapshot.Tidy) {folder : Folder}
    (led : snapshot.reach (Path.steps directory) = .node (.folder folder)) :
    '\x00' ∉ directory.toList := by
  intro within
  obtain ⟨step, among, broken⟩ := (Path.mem_iff_steps (by decide) (by decide)).mp within
  unfold Snapshot.reach at led
  split at led
  · rename_i node place
    cases node with
    | file content =>
        generalize Path.steps directory = names at led
        cases names <;> cases led
    | folder top => exact (tidy top place).walk led step among broken
  · rename_i other
    exact absurd led (other _)

theorem Tidy.reach_join (tidy : snapshot.Tidy) {folder : Folder} {node : Node}
    (led : snapshot.reach (Path.steps directory) = .node (.folder folder))
    (found : folder.find? name = some node) :
    snapshot.reach (Path.steps (Path.join directory name)) = .node node := by
  have proper := ((tidy.reach led).name (Folder.mem_of_find found)).1
  rw [Path.steps_join proper, reach_append, led]
  simp [Node.walk, found]

/-- Does the listing of every folder in the directory count the files that are listed as they
are? -/
def CountsDeeper (snapshot : Snapshot) (accepts : String → Bool) (directory : String)
    (folder : Folder) : Prop :=
  ∀ name below, folder.find? name = some (.folder below) →
    snapshot.counted accepts (Path.join directory name) =
      below.files.countP (snapshot.isCounted accepts (Path.steps directory ++ [name]))

theorem worth_shown {folder : Folder} (tidy : folder.Tidy)
    (deeper : snapshot.CountsDeeper accepts directory folder) {isFolder : Bool}
    (member : ⟨name, isFolder⟩ ∈ folder.entries)
    (shows : snapshot.Shows (Path.ofSegments (Path.steps directory ++ [name]))) :
    snapshot.worth accepts directory ⟨name, isFolder⟩ =
      (folder.filesAt name).countP (snapshot.isCounted accepts (Path.steps directory)) := by
  cases isFolder with
  | false =>
      obtain ⟨content, found⟩ := tidy.find_file member
      simp [worth, Folder.filesAt, found, isCounted, shows]
  | true =>
      obtain ⟨below, found⟩ := tidy.find_folder member
      simp only [worth, if_true, deeper name below found, Folder.filesAt, found, List.countP_map]
      refine List.countP_congr fun path among => ?_
      simp [isCounted_cons _ _ (Folder.files_ne_nil among)]

/-- Below a folder that is listed in another form there is nothing, or another folder, where
nothing is listed as it is. -/
theorem Tidy.worth_hidden (tidy : snapshot.Tidy) {folder : Folder}
    (led : snapshot.reach (Path.steps directory) = .node (.folder folder))
    (listed : snapshot.entries directory = .ok entries)
    (quiet : snapshot.Quiet accepts (Path.steps directory) folder)
    (deeper : snapshot.CountsDeeper accepts directory folder) {isFolder : Bool}
    (member : ⟨name, isFolder⟩ ∈ folder.entries)
    (among : ⟨snapshot.listedAs (Path.steps directory) name, isFolder⟩ ∈ entries)
    (hidden : ¬ snapshot.Shows (Path.ofSegments (Path.steps directory ++ [name]))) :
    snapshot.worth accepts directory ⟨snapshot.listedAs (Path.steps directory) name, isFolder⟩ =
      0 := by
  have tidyHere := tidy.reach led
  cases isFolder with
  | false =>
      obtain ⟨content, found⟩ := tidyHere.find_file member
      have file : [name] ∈ folder.files := by
        refine Folder.mem_files_of_filesAt tidyHere member ?_
        simp [Folder.filesAt, found]
      have refused := quiet [name] file hidden
      simp only [List.dropLast_singleton, List.append_nil] at refused
      simpa [worth] using refused
  | true =>
      simp only [worth, if_true]
      by_cases leads : ∃ inner, folder.find? (snapshot.listedAs (Path.steps directory) name) =
          some (.folder inner)
      · obtain ⟨inner, found⟩ := leads
        have otherHidden : ¬ snapshot.Shows (Path.ofSegments (Path.steps directory ++
            [snapshot.listedAs (Path.steps directory) name])) := by
          intro other
          rw [eq_of_shows (tidyHere.name member).1 other] at other
          exact hidden other
        rw [deeper _ inner found]
        refine List.countP_eq_zero.mpr fun path within => ?_
        rw [← isCounted_cons _ _ (Folder.files_ne_nil within), not_isCounted otherHidden]
        exact Bool.false_ne_true
      · refine tidy.counted_missing fun inner reached => leads ⟨inner, ?_⟩
        obtain ⟨same, outer, found⟩ := tidy.lower listed among reached
        obtain rfl : folder = same := by simpa [led] using outer
        exact found

/-- A listing counts the files that are listed as they are, if what else is listed is not
accepted. -/
theorem Tidy.counted_shown (tidy : snapshot.Tidy) {folder : Folder} (inside : Inside directory)
    (led : snapshot.reach (Path.steps directory) = .node (.folder folder))
    (quiet : snapshot.Quiet accepts (Path.steps directory) folder) :
    snapshot.counted accepts directory =
      folder.files.countP (snapshot.isCounted accepts (Path.steps directory)) := by
  -- by height, and not along the folder: a listed form may lead to another folder below
  induction bound : folder.height using Nat.strong_induction_on generalizing directory folder with
  | _ height ih =>
  have tidyHere := tidy.reach led
  have deeper : snapshot.CountsDeeper accepts directory folder := by
    intro name below found
    have proper := (tidyHere.name (Folder.mem_of_find found)).1
    have quietBelow := quiet.below tidyHere found
    rw [← Path.steps_join proper] at quietBelow ⊢
    exact ih below.height (bound ▸ Folder.height_of_find found) (Path.inside_join inside proper)
      (tidy.reach_join led found) quietBelow rfl
  obtain ⟨entries, listed⟩ := entries_inside inside (tidy.whole_of_reach led)
  obtain ⟨-, -, shuffled⟩ := entries_eq_ok listed
  have holds : snapshot.held (Path.steps directory) = folder.entries := by
    unfold Snapshot.held
    rw [led]
  rw [holds] at shuffled
  rw [tidy.counted_eq listed, (shuffled.map _).sum_nat, tidyHere.files_eq, List.countP_flatMap,
    List.map_map]
  refine congrArg List.sum (List.map_congr_left fun entry member => ?_)
  obtain ⟨name, isFolder⟩ := entry
  simp only [Function.comp_apply]
  by_cases shows : snapshot.Shows (Path.ofSegments (Path.steps directory ++ [name]))
  · rw [listedAs_shows (tidyHere.name member).1 shows]
    exact worth_shown tidyHere deeper member shows
  · have among : ⟨snapshot.listedAs (Path.steps directory) name, isFolder⟩ ∈ entries :=
      shuffled.mem_iff.mpr (List.mem_map_of_mem member)
    rw [tidy.worth_hidden led listed quiet deeper member among shows]
    refine (List.countP_eq_zero.mpr fun path within => ?_).symm
    obtain ⟨rest, rfl⟩ := Folder.mem_filesAt within
    simp [not_isCounted shows]

theorem length_listedAs {names : List String} (proper : Path.IsName name)
    (hidden : ¬ snapshot.Shows (Path.ofSegments (names ++ [name]))) :
    name.toList.length < (snapshot.listedAs names name).toList.length := by
  cases snapshot with
  | disk view => exact absurd nofun hidden
  | revision view =>
      refine Source.Revision.length_listedName proper ?_
      simpa [Shows, isRevision] using hidden

/-- A listed form that is not the name is longer than the name. So where all shorter names are
listed as they are, no listed form stands in place of another name. -/
theorem quiet_of_shorter {folder : Folder} (tidy : folder.Tidy) {names : List String}
    (shorter : ∀ path ∈ folder.files, (path.getLastD "").toList.length < name.toList.length →
      snapshot.Shows (Path.ofSegments (names ++ path))) :
    snapshot.Quiet (· == name) names folder := by
  intro path among hidden
  have atLeast : name.toList.length ≤ (path.getLastD "").toList.length :=
    not_lt.mp fun less => hidden (shorter path among less)
  obtain rfl | ⟨above, last, rfl⟩ := List.eq_nil_or_concat' path
  · exact absurd rfl (Folder.files_ne_nil among)
  · have proper := tidy.files_isName among List.mem_concat_self
    rw [← List.append_assoc] at hidden
    have longer := length_listedAs proper hidden
    simp only [List.dropLast_concat, List.getLastD_concat] at atLeast ⊢
    rw [beq_eq_false_iff_ne]
    rintro rfl
    omega

/-- The files are counted right, whatever names are accepted, just when all of them are listed as
they are: of those that are not, the shortest name is accepted without being listed. -/
theorem Tidy.counted_iff (tidy : snapshot.Tidy) {folder : Folder} (inside : Inside directory)
    (led : snapshot.reach (Path.steps directory) = .node (.folder folder)) :
    (∀ accepts, snapshot.counted accepts directory =
        folder.files.countP fun path => accepts (path.getLastD "")) ↔
      ∀ path ∈ folder.files, snapshot.Shows (Path.ofSegments (Path.steps directory ++ path)) := by
  constructor
  · intro counts
    -- by the length of the last name, so that all files with a shorter name are known to be shown
    suffices each : ∀ length, ∀ path ∈ folder.files, (path.getLastD "").toList.length = length →
        snapshot.Shows (Path.ofSegments (Path.steps directory ++ path)) from
      fun path among => each _ path among rfl
    intro length
    induction length using Nat.strong_induction_on with
    | _ length ih =>
    rintro path among rfl
    let accepts (name : String) : Bool := name == path.getLastD ""
    have quiet : snapshot.Quiet accepts (Path.steps directory) folder :=
      quiet_of_shorter (tidy.reach led) fun other within less => ih _ less other within rfl
    have total := (tidy.counted_shown inside led quiet).symm.trans (counts accepts)
    have kept : (folder.files.filter fun path => accepts (path.getLastD "")).countP
        (fun path => snapshot.Shows (Path.ofSegments (Path.steps directory ++ path))) =
          (folder.files.filter fun path => accepts (path.getLastD "")).length := by
      rw [List.countP_filter, ← List.countP_eq_length_filter]
      exact total
    have shown := List.countP_eq_length.mp kept path
      (List.mem_filter.mpr ⟨among, beq_self_eq_true _⟩)
    exact of_decide_eq_true shown
  · intro shown accepts
    rw [tidy.counted_shown inside led fun path among hidden => absurd (shown path among) hidden]
    exact List.countP_congr fun path among => by simp [isCounted, shown path among]

/-- The files at any depth below a directory, by the names that lead to them from there. -/
def filesBelow (snapshot : Snapshot) (directory : String) : List (List String) :=
  match snapshot.reach (Path.steps directory) with
  | .node (.folder folder) => folder.files
  | _ => []

/-- A directory without segments that lead nowhere or above, in a tree without line breaks. -/
structure Surveyed (snapshot : Snapshot) (directory : String) : Prop where
  tidy : snapshot.Tidy
  unbroken : ∀ folder, snapshot.place = .node (.folder folder) → folder.Unbroken
  segments : directory = "" ∨ ∀ segment ∈ Path.segments directory, Path.IsName segment
  /-- To the listing of a commit a colon at the start is a mark, and not part of a name. -/
  unmarked : snapshot.isRevision = true → directory.toList.head? ≠ some ':' ∧
    (directory = "" → ∀ entry ∈ snapshot.held [], entry.name.toList.head? ≠ some ':')

theorem Surveyed.inside (surveyed : snapshot.Surveyed directory) : Inside directory := by
  rcases surveyed.segments with rfl | names
  · exact ⟨by decide, by decide⟩
  · exact ⟨Path.isAbsolute_of_filled fun none => (names "" none).filled rfl,
      fun above => (names ".." above).above rfl⟩

/-- No line breaks are listed, so that a pattern for any name accepts every folder. -/
theorem Surveyed.anyName (surveyed : snapshot.Surveyed directory)
    (listed : snapshot.entries directory = .ok entries) {entry : Entry} (member : entry ∈ entries) :
    Glob.anyName entry.name = true := by
  obtain ⟨-, -, shuffled⟩ := entries_eq_ok listed
  obtain ⟨actual, held, rfl⟩ := List.mem_map.mp (shuffled.mem_iff.mp member)
  obtain ⟨folder, led, within⟩ := reach_of_held held
  have unbroken : folder.Unbroken :=
    reach_inherits led surveyed.unbroken fun _ _ _ found unbroken => unbroken.below found
  have free := unbroken.name within
  have shown : '\n' ∉ (snapshot.listedAs (Path.steps directory) actual.name).toList := by
    cases snapshot with
    | disk view => exact free
    | revision view =>
        exact Source.Revision.not_mem_listedName (by decide) _ (surveyed.tidy.held held).1 free
  simpa [Glob.anyName] using shown

/-- The parts of a listing are what the directory lists. -/
theorem Surveyed.list_parts (surveyed : snapshot.Surveyed directory) {listing : Listing}
    (made : snapshot.list directory accepts = .ok listing) :
    listing.path = directory ∧ listing.name = Path.baseName directory ∧
      snapshot.files directory accepts = .ok listing.files ∧
      ∃ found, snapshot.folders directory Glob.anyName = .ok found ∧
        List.Forall₂ (fun entry below => snapshot.list entry.path accepts = .ok below) found
          listing.folders := by
  obtain ⟨entries, listed⟩ := surveyed.tidy.list_ok_iff.mp ⟨listing, made⟩
  rw [surveyed.tidy.list_eq listed] at made
  obtain ⟨listings, each, rfl⟩ := Outcome.map_eq_ok.mp made
  simp only [Listing.path, Listing.name, Listing.files, Listing.folders, true_and]
  refine ⟨?_, foldersIn directory entries, ?_, ?_⟩
  · rw [files, listed]
    rfl
  · have all : (entries.filter fun entry => entry.isFolder && Glob.anyName entry.name) =
        entries.filter (·.isFolder) :=
      List.filter_congr fun entry member => by rw [surveyed.anyName listed member, Bool.and_true]
    rw [folders, listed, Except.map, all]
    rfl
  · exact List.forall₂_map_left_iff.mp (listEach_eq_ok each)

/-- A folder with a file beside it, and a file in it. -/
def nested : Folder :=
  .file "a.sql" (.text "") (.folder "b" (.file "c.sql" (.text "") .nil) .nil)

/-- A folder whose name holds a quotation mark. -/
def marked : Folder := .folder "a\"b" (.file "x.sql" (.text "SELECT 1") .nil) .nil

end Snapshot

end Rollout
