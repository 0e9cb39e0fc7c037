import Rollout.Proofs.Source.Shown
import Rollout.Proofs.Tree

/-!
A source tree on disk and the same tree at a ref. They list a directory alike as far as all names
are listed as they are, and no further; and they read the same files, whatever the names.
-/

namespace Rollout

namespace Path

/-- A name inside a directory starts as the directory does, unless that is written as the root. -/
theorem join_cases (directory name : String) :
    (dropSlashes directory = "" ∨ dropSlashes directory = ".") ∧ join directory name = name ∨
      ¬ (dropSlashes directory = "" ∨ dropSlashes directory = ".") ∧
        (join directory name).toList.head? = directory.toList.head? := by
  unfold join
  dsimp only
  split <;> rename_i root
  · exact .inl ⟨root, rfl⟩
  · refine .inr ⟨root, ?_⟩
    obtain ⟨count, same⟩ := dropSlashes_spec directory
    obtain ⟨filled, -⟩ := not_or.mp root
    obtain ⟨c, rest, letters⟩ := List.exists_cons_of_ne_nil
      (mt String.toList_eq_nil_iff.mp filled)
    rw [show directory.toList = (dropSlashes directory ++ slashes count).toList from
      congrArg String.toList same]
    simp [letters]

theorem inside_join {directory name : String} (inside : Snapshot.Inside directory)
    (proper : IsName name) : Snapshot.Inside (join directory name) := by
  refine ⟨?_, fun above => inside.2 (above_of_join proper above)⟩
  have relative := inside.1
  unfold isAbsolute at relative ⊢
  rcases join_cases directory name with ⟨-, same⟩ | ⟨-, same⟩ <;> rw [same]
  · simp only [beq_eq_false_iff_ne, ne_eq]
    exact fun first => proper.free (List.mem_of_mem_head? first)
  · exact relative

theorem fileName_joined {directory : String} {entries : List Entry}
    (proper : ∀ entry ∈ entries, IsName entry.name) :
    (entries.map fun entry => join directory entry.name).map fileName = entries.map (·.name) := by
  rw [List.map_map]
  exact List.map_congr_left fun entry member => fileName_join (proper entry member)

end Path

namespace Snapshot

theorem height_of_place {snapshot : Snapshot} {top : Folder}
    (place : snapshot.place = .node (.folder top)) : snapshot.height = top.height := by
  unfold height
  rw [place]

/-- Listing directories fails only if listing one of them does. -/
theorem listEach_ok {list : String → Except SourceError Listing} {directories : List String}
    (each : ∀ directory ∈ directories, ∃ listing, list directory = .ok listing) :
    ∃ listings, listEach list directories = .ok listings := by
  induction directories with
  | nil => exact ⟨[], rfl⟩
  | cons directory rest ih =>
      obtain ⟨⟨listing, one⟩, later⟩ := List.forall_mem_cons.mp each
      obtain ⟨listings, more⟩ := ih later
      exact ⟨listing :: listings, by rw [listEach, one, more]; rfl⟩

theorem listEach_agree {first second : String → Except SourceError Listing}
    {directories : List String}
    (agree : ∀ directory ∈ directories, Outcome.Agree (first directory) (second directory)) :
    Outcome.Agree (listEach first directories) (listEach second directories) := by
  induction directories with
  | nil => rfl
  | cons directory rest ih =>
      obtain ⟨here, later⟩ := List.forall_mem_cons.mp agree
      unfold listEach
      rcases Outcome.agree_iff.mp here with ⟨listing, one, two⟩ | ⟨fault, other, one, two⟩ <;>
        rw [one, two]
      · exact (ih later).map _
      · rfl

theorem listEach_eq_ok {list : String → Except SourceError Listing} {directories : List String}
    {listings : List Listing} (listed : listEach list directories = .ok listings) :
    List.Forall₂ (fun directory listing => list directory = .ok listing) directories listings := by
  induction directories generalizing listings with
  | nil =>
      cases listed
      exact .nil
  | cons directory rest ih =>
      unfold listEach at listed
      split at listed
      · cases listed
      · rename_i listing first
        obtain ⟨others, later, rfl⟩ := Outcome.map_eq_ok.mp listed
        exact .cons first (ih later)

theorem mem_below {directory path : String} {entries : List Entry}
    (member : path ∈ ((entries.filter (·.isFolder)).map fun entry =>
      (⟨Path.join directory entry.name, entry.name⟩ : FileEntry)).map (·.path)) :
    ∃ name, ⟨name, true⟩ ∈ entries ∧ path = Path.join directory name := by
  simp only [List.map_map, List.mem_map, Function.comp_apply] at member
  obtain ⟨⟨name, isFolder⟩, kept, rfl⟩ := member
  obtain ⟨held, sort⟩ := List.mem_filter.mp kept
  obtain rfl : isFolder = true := sort
  exact ⟨name, held, rfl⟩

/-- A listing that is made has its directory, its files and the listings of its folders. -/
theorem listTo_eq_ok {snapshot : Snapshot} {accepts : String → Bool} {depth : Nat}
    {directory : String} {listing : Listing}
    (listed : snapshot.listTo accepts depth directory = .ok listing) :
    ∃ entries, snapshot.entries directory = .ok entries ∧ listing.path = directory ∧
      listing.files = ((entries.filter fun entry => !entry.isFolder && accepts entry.name).map
        fun entry => ⟨Path.join directory entry.name, entry.name⟩) ∧
      ∀ less, depth = less + 1 →
        List.Forall₂ (fun below listing => snapshot.listTo accepts less below = .ok listing)
          ((entries.filter (·.isFolder)).map fun entry => Path.join directory entry.name)
          listing.folders := by
  cases depth with
  | zero =>
      unfold listTo at listed
      split at listed
      · cases listed
      · rename_i entries shown
        cases listed
        exact ⟨entries, shown, rfl, rfl, nofun⟩
  | succ depth =>
      unfold listTo at listed
      split at listed
      · cases listed
      · rename_i entries shown
        obtain ⟨listings, all, rfl⟩ := Outcome.map_eq_ok.mp listed
        refine ⟨entries, shown, rfl, rfl, ?_⟩
        rintro _ ⟨⟩
        simpa [List.map_map, Function.comp_def, Listing.folders] using listEach_eq_ok all

theorem listTo_paths {snapshot : Snapshot} {accepts : String → Bool} {depth : Nat}
    {directories : List String} {listings : List Listing}
    (each : List.Forall₂ (fun below listing => snapshot.listTo accepts depth below = .ok listing)
      directories listings) : listings.map (·.path) = directories := by
  induction each with
  | nil => rfl
  | cons listed _ ih =>
      obtain ⟨_, -, path, -⟩ := listTo_eq_ok listed
      rw [List.map_cons, path, ih]

/-- What lists the same directories to the same listings lists each of them alike. -/
theorem agree_of_listed {first second : String → Except SourceError Listing}
    {directories : List String} {listings : List Listing}
    (one : List.Forall₂ (fun below listing => first below = .ok listing) directories listings)
    (two : List.Forall₂ (fun below listing => second below = .ok listing) directories listings)
    {directory : String} (member : directory ∈ directories) :
    Outcome.Agree (first directory) (second directory) := by
  induction one with
  | nil => cases member
  | cons here _ ih =>
      cases two with
      | cons there later =>
          rcases List.mem_cons.mp member with rfl | deeper
          · rw [here, there]
            rfl
          · exact ih later deeper

end Snapshot

namespace Source

/-- A tree on disk, and the same tree at a ref. -/
structure Twins (disk : Disk) (revision : Revision) (top : Folder) : Prop where
  disk : disk.place = .node (.folder top)
  revision : revision.place = .node (.folder top)
  tidy : top.Tidy

theorem resolve_inside {path : String} (inside : Snapshot.Inside path) :
    Disk.resolve path = .ok (Path.steps path) :=
  ((Snapshot.resolve_cases path).resolve_right fun refused => refused.2 inside).1

theorem checkRelative_inside {path : String} (inside : Snapshot.Inside path)
    (whole : '\x00' ∉ path.toList) : Revision.checkRelative path = .ok () := by
  unfold Revision.checkRelative
  rw [if_neg (by simpa [Snapshot.Inside] using inside), if_neg (by simpa using whole)]

namespace Twins

variable {disk : Disk} {revision : Revision} {top : Folder}
  (twins : Twins disk revision top)

include twins

theorem disk_reach (path : String) : disk.reach (Path.steps path) = top.placeOf path := by
  unfold Disk.reach
  rw [twins.disk]
  rfl

theorem revision_reach (path : String) : revision.reach (Path.steps path) = top.placeOf path := by
  unfold Revision.reach
  rw [twins.revision]
  rfl

section Directory

variable {directory : String}

theorem disk_entries (inside : Snapshot.Inside directory) (whole : '\x00' ∉ directory.toList) :
    disk.entries directory = match top.placeOf directory with
      | .node (.folder folder) => .ok folder.entries
      | _ => .ok [] := by
  unfold Disk.entries
  rw [resolve_inside inside, ← twins.disk_reach]
  exact if_neg (by simpa using whole)

theorem revision_entries (inside : Snapshot.Inside directory)
    (whole : '\x00' ∉ directory.toList) :
    revision.entries directory = match top.placeOf directory with
      | .node (.folder folder) => .ok (folder.listed (Path.steps directory))
      | _ => .ok [] := by
  unfold Revision.entries
  rw [checkRelative_inside inside whole]
  dsimp only
  rw [twins.revision_reach]
  rfl

theorem disk_listed {folder : Folder} (inside : Snapshot.Inside directory)
    (led : top.placeOf directory = .node (.folder folder)) :
    (Snapshot.disk disk).entries directory = .ok folder.entries := by
  rw [Snapshot.entries, twins.disk_entries inside (twins.tidy.whole led), led]

theorem revision_listed {folder : Folder} (inside : Snapshot.Inside directory)
    (led : top.placeOf directory = .node (.folder folder)) :
    (Snapshot.revision revision).entries directory =
      .ok (folder.listed (Path.steps directory)) := by
  rw [Snapshot.entries, twins.revision_entries inside (twins.tidy.whole led), led]

/-- A directory is listed alike if its names are listed as they are; or it is refused by both. -/
theorem entries_agree (level : ∀ folder, top.placeOf directory = .node (.folder folder) →
    folder.ShownAt (Path.steps directory)) :
    Outcome.Agree (disk.entries directory) (revision.entries directory) := by
  by_cases inside : Snapshot.Inside directory
  · by_cases whole : '\x00' ∈ directory.toList
    · -- both fail, each with an error of its own
      unfold Disk.entries Revision.entries Revision.checkRelative
      rw [resolve_inside inside, if_neg (by simpa [Snapshot.Inside] using inside),
        if_pos (by simpa using whole)]
      dsimp only
      rw [if_pos (by simpa using whole)]
      rfl
    · rw [twins.disk_entries inside whole, twins.revision_entries inside whole]
      split
      · rename_i folder led
        rw [Folder.listed_shown (twins.tidy.placeOf led) (level folder led)]
        rfl
      · rfl
  · have refused := (Snapshot.resolve_cases directory).resolve_left fun accepted =>
      inside accepted.2
    unfold Disk.entries Revision.entries Revision.checkRelative
    rw [refused.1, if_pos (by simpa [Snapshot.Inside, -not_and, Decidable.not_and_iff_or_not]
      using inside)]
    rfl

/-- If all files and all folders in a directory are listed alike, its names are listed as they
are. -/
theorem shownAt_of_agree {folder : Folder} (inside : Snapshot.Inside directory)
    (led : top.placeOf directory = .node (.folder folder))
    (files : Outcome.Agree ((Snapshot.disk disk).files directory fun _ => true)
      ((Snapshot.revision revision).files directory fun _ => true))
    (folders : Outcome.Agree ((Snapshot.disk disk).folders directory fun _ => true)
      ((Snapshot.revision revision).folders directory fun _ => true)) :
    folder.ShownAt (Path.steps directory) := by
  unfold Snapshot.files at files
  unfold Snapshot.folders at folders
  rw [twins.disk_listed inside led, twins.revision_listed inside led] at files folders
  have sameFiles := congrArg (List.map FileEntry.name)
    (Except.ok.inj (Outcome.agree_ok.mp files))
  have sameFolders := congrArg (List.map FileEntry.name)
    (Except.ok.inj (Outcome.agree_ok.mp folders))
  refine Folder.shownAt_of_names (twins.tidy.placeOf led) ?_ ?_
  · simpa [List.map_map, Function.comp_def] using sameFiles
  · simpa [List.map_map, Function.comp_def] using sameFolders

theorem mem_disk_entries {entries : List Entry} {entry : Entry}
    (listed : disk.entries directory = .ok entries) (member : entry ∈ entries) :
    Snapshot.Inside directory ∧ ∃ folder, top.placeOf directory = .node (.folder folder) ∧
      entry ∈ folder.entries := by
  have shown : (Snapshot.disk disk).entries directory = .ok entries := listed
  obtain ⟨inside, folder, actual, led, held, same⟩ := Snapshot.mem_entries shown member
  obtain rfl : entry.name = actual := same.resolve_right fun revision => nomatch revision.1
  have reach : (Snapshot.disk disk).reach (Path.steps directory) = top.placeOf directory :=
    twins.disk_reach directory
  exact ⟨inside, folder, reach.symm.trans led, held⟩

theorem below_disk {folder below : Folder} {name : String} (inside : Snapshot.Inside directory)
    (led : top.placeOf directory = .node (.folder folder))
    (found : folder.find? name = some (.folder below)) :
    Path.IsName name ∧ Snapshot.Inside (Path.join directory name) ∧
      top.placeOf (Path.join directory name) = .node (.folder below) := by
  have proper := ((twins.tidy.placeOf led).name (Folder.mem_of_find found)).1
  exact ⟨proper, Path.inside_join inside proper, Folder.placeOf_join led proper found⟩

/-- A directory is listed alike at any depth if all names below it are listed as they are. -/
theorem listTo_agree (accepts : String → Bool) (depth : Nat)
    (shown : ∀ folder, top.placeOf directory = .node (.folder folder) →
      folder.Shown (Path.steps directory)) :
    Outcome.Agree ((Snapshot.disk disk).listTo accepts depth directory)
      ((Snapshot.revision revision).listTo accepts depth directory) := by
  induction depth generalizing directory with
  | zero =>
      have agree := twins.entries_agree fun folder led => (shown folder led).level
      unfold Snapshot.listTo
      rcases Outcome.agree_iff.mp agree with ⟨entries, one, two⟩ | ⟨fault, other, one, two⟩ <;>
        rw [Snapshot.entries, Snapshot.entries, one, two] <;> rfl
  | succ depth ih =>
      have agree := twins.entries_agree fun folder led => (shown folder led).level
      unfold Snapshot.listTo
      rcases Outcome.agree_iff.mp agree with ⟨entries, one, two⟩ | ⟨fault, other, one, two⟩ <;>
        rw [Snapshot.entries, Snapshot.entries, one, two]
      · refine (Snapshot.listEach_agree fun below among => ?_).map _
        obtain ⟨name, member, rfl⟩ := Snapshot.mem_below among
        obtain ⟨inside, folder, led, held⟩ := twins.mem_disk_entries one member
        obtain ⟨inner, found⟩ := (twins.tidy.placeOf led).find_folder held
        obtain ⟨proper, -, leads⟩ := twins.below_disk inside led found
        refine ih fun other deeper => ?_
        obtain rfl : inner = other := by simpa [leads] using deeper
        rw [Path.steps_join proper]
        exact (shown folder led).below found
      · rfl

/-- A folder on disk can be listed. -/
theorem disk_listTo_ok {folder : Folder} (accepts : String → Bool) (depth : Nat)
    (inside : Snapshot.Inside directory) (led : top.placeOf directory = .node (.folder folder)) :
    ∃ listing, (Snapshot.disk disk).listTo accepts depth directory = .ok listing := by
  induction depth generalizing directory folder with
  | zero =>
      unfold Snapshot.listTo
      rw [twins.disk_listed inside led]
      exact ⟨_, rfl⟩
  | succ depth ih =>
      unfold Snapshot.listTo
      rw [twins.disk_listed inside led]
      dsimp only
      obtain ⟨listings, listed⟩ : ∃ listings, Snapshot.listEach
          ((Snapshot.disk disk).listTo accepts depth)
          (((folder.entries.filter (·.isFolder)).map fun entry =>
            (⟨Path.join directory entry.name, entry.name⟩ : FileEntry)).map (·.path)) =
              .ok listings := by
        refine Snapshot.listEach_ok fun below among => ?_
        obtain ⟨name, held, rfl⟩ := Snapshot.mem_below among
        obtain ⟨inner, found⟩ := (twins.tidy.placeOf led).find_folder held
        obtain ⟨-, within, deeper⟩ := twins.below_disk inside led found
        exact ih within deeper
      rw [listed]
      exact ⟨_, rfl⟩

/-- The parts of a folder that is listed alike: the names of its files, and what becomes of its
folders. -/
theorem listTo_parts {folder : Folder} {depth : Nat} (inside : Snapshot.Inside directory)
    (led : top.placeOf directory = .node (.folder folder))
    (agree : Outcome.Agree ((Snapshot.disk disk).listTo (fun _ => true) depth directory)
      ((Snapshot.revision revision).listTo (fun _ => true) depth directory)) :
    ((folder.listed (Path.steps directory)).filter (!·.isFolder)).map (·.name) =
        (folder.entries.filter (!·.isFolder)).map (·.name) ∧
      ∃ listings : List Listing,
        (∀ less, depth = less + 1 → List.Forall₂
          (fun below listing => (Snapshot.disk disk).listTo (fun _ => true) less below =
            .ok listing)
          ((folder.entries.filter (·.isFolder)).map fun entry =>
            Path.join directory entry.name) listings) ∧
        ∀ less, depth = less + 1 → List.Forall₂
          (fun below listing => (Snapshot.revision revision).listTo (fun _ => true) less below =
            .ok listing)
          (((folder.listed (Path.steps directory)).filter (·.isFolder)).map fun entry =>
            Path.join directory entry.name) listings := by
  obtain ⟨listing, here⟩ := twins.disk_listTo_ok (fun _ => true) depth inside led
  rw [here] at agree
  obtain ⟨entries, shown, -, files, folders⟩ := Snapshot.listTo_eq_ok here
  obtain ⟨others, listed, -, otherFiles, otherFolders⟩ :=
    Snapshot.listTo_eq_ok (Outcome.agree_ok.mp agree)
  rw [twins.disk_listed inside led] at shown
  rw [twins.revision_listed inside led] at listed
  cases shown
  cases listed
  refine ⟨?_, listing.folders, folders, otherFolders⟩
  have names := congrArg (List.map FileEntry.name) (otherFiles.symm.trans files)
  simpa [List.map_map, Function.comp_def] using names

/-- If a folder is listed alike at full depth, all names below it are listed as they are. -/
theorem shown_of_listTo {folder : Folder} {depth : Nat} (inside : Snapshot.Inside directory)
    (led : top.placeOf directory = .node (.folder folder)) (deep : folder.height ≤ depth)
    (agree : Outcome.Agree ((Snapshot.disk disk).listTo (fun _ => true) depth directory)
      ((Snapshot.revision revision).listTo (fun _ => true) depth directory)) :
    folder.Shown (Path.steps directory) := by
  induction depth generalizing directory folder with
  | zero =>
      obtain ⟨files, -⟩ := twins.listTo_parts inside led agree
      have tidy := twins.tidy.placeOf led
      have flat (name : String) (below : Folder) : folder.find? name ≠ some (.folder below) := by
        intro found
        have lower := Folder.height_of_find found
        omega
      have plain := tidy.flat flat
      refine tidy.shown (Folder.shownAt_of_names tidy files ?_) fun name below found =>
        absurd found (flat name below)
      have none : folder.entries.filter (·.isFolder) = [] :=
        List.filter_eq_nil_iff.mpr fun entry member => by simp [plain entry member]
      have noneListed : (folder.listed (Path.steps directory)).filter (·.isFolder) = [] := by
        refine List.filter_eq_nil_iff.mpr fun entry member => ?_
        obtain ⟨-, actual, held, same⟩ := Folder.mem_listed tidy member
        simp [← same, plain actual held]
      rw [none, noneListed]
  | succ depth ih =>
      obtain ⟨files, listings, here, there⟩ := twins.listTo_parts inside led agree
      have tidy := twins.tidy.placeOf led
      have level : folder.ShownAt (Path.steps directory) := by
        refine Folder.shownAt_of_names tidy files ?_
        have paths := (Snapshot.listTo_paths (there depth rfl)).symm.trans
          (Snapshot.listTo_paths (here depth rfl))
        have names := congrArg (List.map Path.fileName) paths
        rwa [Path.fileName_joined fun entry member =>
            (Folder.mem_listed tidy (List.mem_filter.mp member).1).1,
          Path.fileName_joined fun entry member =>
            (tidy.name (List.mem_filter.mp member).1).1] at names
      rw [Folder.listed_shown tidy level] at there
      refine tidy.shown level fun name below found => ?_
      obtain ⟨proper, within, deeper⟩ := twins.below_disk inside led found
      have lower := Folder.height_of_find found
      rw [← Path.steps_join proper]
      refine ih within deeper (by omega) ?_
      refine Snapshot.agree_of_listed (here depth rfl) (there depth rfl) ?_
      exact List.mem_map_of_mem (List.mem_filter.mpr ⟨Folder.mem_of_find found, rfl⟩)

/-- The files and the folders in a directory are listed alike just when its names are listed as
they are. -/
theorem level_agree_iff (inside : Snapshot.Inside directory) :
    (∀ accepts, Outcome.Agree ((Snapshot.disk disk).files directory accepts)
        ((Snapshot.revision revision).files directory accepts) ∧
      Outcome.Agree ((Snapshot.disk disk).folders directory accepts)
        ((Snapshot.revision revision).folders directory accepts)) ↔
      ∀ folder, top.placeOf directory = .node (.folder folder) →
        folder.ShownAt (Path.steps directory) := by
  constructor
  · intro agree folder led
    exact twins.shownAt_of_agree inside led (agree _).1 (agree _).2
  · intro level accepts
    exact ⟨(twins.entries_agree level).map _, (twins.entries_agree level).map _⟩

/-- A directory is listed alike at full depth just when all names below it are listed as they
are. -/
theorem list_agree_iff (inside : Snapshot.Inside directory) :
    (∀ accepts, Outcome.Agree ((Snapshot.disk disk).list directory accepts)
        ((Snapshot.revision revision).list directory accepts)) ↔
      ∀ folder, top.placeOf directory = .node (.folder folder) →
        folder.Shown (Path.steps directory) := by
  have here : (Snapshot.disk disk).height = top.height := Snapshot.height_of_place twins.disk
  have there : (Snapshot.revision revision).height = top.height :=
    Snapshot.height_of_place twins.revision
  unfold Snapshot.list
  rw [here, there]
  constructor
  · intro agree folder led
    exact twins.shown_of_listTo inside led (Folder.height_of_walk led) (agree _)
  · intro shown accepts
    exact twins.listTo_agree accepts _ shown

end Directory

/-- A file is read alike, whatever its name: it holds the same text for both, or no text. -/
theorem read_agree {path : String} {content : Content}
    (led : top.placeOf path = .node (.file content)) (ends : Path.endsInSlash path = false) :
    Outcome.Agree (disk.read path) (revision.read path) := by
  have whole := twins.tidy.whole led
  by_cases inside : Snapshot.Inside path
  · unfold Disk.read Revision.read Revision.contents
    rw [resolve_inside inside, checkRelative_inside inside whole]
    dsimp only
    rw [if_neg (by simpa using whole), twins.disk_reach, twins.revision_reach, led]
    cases content <;> simp [ends] <;> rfl
  · have refused := (Snapshot.resolve_cases path).resolve_left fun accepted => inside accepted.2
    unfold Disk.read Revision.read Revision.contents Revision.checkRelative
    rw [refused.1, if_pos (by simpa [Snapshot.Inside, -not_and, Decidable.not_and_iff_or_not]
      using inside)]
    rfl

end Twins

end Source

end Rollout
