import Rollout.Tree
import Rollout.Proofs.Folder
import Rollout.Proofs.Outcome
import Rollout.Proofs.Source.Listed

/-!
What source trees list, and reading back what they have listed.
-/

namespace Rollout

/-- Could the file not be found, or not be looked for? -/
def SourceError.isLost : SourceError → Bool
  | notFound _ | outsideRoot _ => true
  | file _ _ | git _ => false

namespace Snapshot

/-- What names lead to. -/
def reach (snapshot : Snapshot) (names : List String) : Place :=
  match snapshot.place with
  | .node node => node.walk names
  | other => other

def Orderly (snapshot : Snapshot) : Prop :=
  ∀ folder, snapshot.place = .node (.folder folder) → folder.Orderly

def isRevision : Snapshot → Bool
  | disk _ => false
  | revision _ => true

/-- The listing of the directory shows a file of this name. -/
def Lists (snapshot : Snapshot) (directory name : String) : Prop :=
  ∃ entries, snapshot.entries directory = .ok entries ∧ ⟨name, false⟩ ∈ entries

def HasFile (snapshot : Snapshot) (path : String) : Prop :=
  ∃ content, snapshot.reach (Path.steps path) = .node (.file content)

/-- The path leads to a file, and reading it does not fail because it could not be found. -/
structure Readable (snapshot : Snapshot) (path : String) : Prop where
  hasFile : snapshot.HasFile path
  read : ∀ error, snapshot.read path = .error error → error.isLost = false
  localFile : ∀ error, snapshot.localFile path = .error error → error.isLost = false

variable {snapshot : Snapshot}

theorem reach_append (names more : List String) :
    snapshot.reach (names ++ more) =
      match snapshot.reach names with
      | .node last => last.walk more
      | other => other := by
  unfold reach
  cases snapshot.place with
  | nothing => rfl
  | blocked => rfl
  | node node => exact node.walk_append names more

theorem Orderly.reach (orderly : snapshot.Orderly) {names : List String} {folder : Folder}
    (led : snapshot.reach names = .node (.folder folder)) : folder.Orderly := by
  unfold Snapshot.reach at led
  split at led
  · rename_i node place
    cases node with
    | file content => cases names <;> cases led
    | folder top => exact Node.walk_orderly (orderly top place) led
  · rename_i other
    exact absurd led (other _)

/-- A path that a tree does not refuse. -/
def Inside (path : String) : Prop := Path.isAbsolute path = false ∧ ".." ∉ Path.segments path

theorem namesOf_segments (segments : List String) :
    Source.Disk.namesOf (segments.filterMap Path.component?) =
      if ".." ∈ segments then none
      else some (segments.filter fun segment => segment != "" && segment != ".") := by
  induction segments with
  | nil => rfl
  | cons segment rest ih =>
      by_cases silent : segment = "" ∨ segment = "."
      · have other : ".." ≠ segment := by rcases silent with rfl | rfl <;> decide
        have dropped : (segment != "" && segment != ".") = false := by
          rcases silent with rfl | rfl <;> rfl
        rw [List.filterMap_cons_none (by simp [Path.component?, silent]), ih]
        simp [other, dropped]
      · by_cases above : segment = ".."
        · subst above
          rfl
        · obtain ⟨filled, other⟩ := not_or.mp silent
          have named : Path.component? segment = some (.name segment) := by
            simp [Path.component?, silent, above]
          rw [List.filterMap_cons_some named, Source.Disk.namesOf, ih]
          by_cases later : ".." ∈ rest <;> simp [later, filled, other, Ne.symm above]

theorem namesOf_components (path : String) :
    Source.Disk.namesOf (Path.components path) =
      if Path.isAbsolute path = true ∨ ".." ∈ Path.segments path then none
      else some (Path.steps path) := by
  have said := namesOf_segments (Path.segments path)
  unfold Path.components
  dsimp only
  split
  · rename_i absolute
    simp [absolute, Source.Disk.namesOf]
  · rename_i relative
    split <;> simpa [relative, Source.Disk.namesOf, Path.steps] using said

theorem resolve_cases (path : String) :
    Source.Disk.resolve path = .ok (Path.steps path) ∧ Inside path ∨
      Source.Disk.resolve path = .error (.outsideRoot path) ∧ ¬ Inside path := by
  unfold Source.Disk.resolve Inside
  rw [namesOf_components]
  split <;> rename_i names found
  · split at found
    · cases found
    · rename_i accepted
      cases found
      exact .inl ⟨rfl, by simpa using accepted⟩
  · split at found
    · rename_i refused
      exact .inr ⟨rfl, by simpa [-not_and, Decidable.not_and_iff_or_not] using refused⟩
    · cases found

theorem checkRelative_cases (path : String) :
    Source.Revision.checkRelative path = .ok () ∧ Inside path ∨
      Source.Revision.checkRelative path = .error (.outsideRoot path) ∧ ¬ Inside path ∨
      ∃ text, Source.Revision.checkRelative path = .error (.git text) ∧ Inside path := by
  unfold Source.Revision.checkRelative Inside
  split
  · rename_i refused
    exact .inr (.inl ⟨rfl, by simpa [-not_and, Decidable.not_and_iff_or_not] using refused⟩)
  · rename_i accepted
    have inside : Path.isAbsolute path = false ∧ ".." ∉ Path.segments path := by
      simpa using accepted
    split
    · exact .inr (.inr ⟨_, rfl, inside⟩)
    · exact .inl ⟨rfl, inside⟩

/-- A listing is that of a folder inside the tree. What a revision lists under a name may have
another name. -/
theorem mem_entries {directory name : String} {isFolder : Bool} {entries : List Entry}
    (listed : snapshot.entries directory = .ok entries) (member : ⟨name, isFolder⟩ ∈ entries) :
    Inside directory ∧
      ∃ folder actual, snapshot.reach (Path.steps directory) = .node (.folder folder) ∧
        ⟨actual, isFolder⟩ ∈ folder.entries ∧
        (name = actual ∨ snapshot.isRevision = true ∧
          name = Source.Revision.listedName (Path.steps directory) actual) := by
  cases snapshot with
  | disk view =>
      simp only [Snapshot.entries, Source.Disk.entries] at listed
      rcases resolve_cases directory with ⟨resolved, inside⟩ | ⟨resolved, -⟩ <;>
        simp only [resolved] at listed
      · split at listed
        · cases listed
        · split at listed <;> cases listed
          · rename_i folder led
            exact ⟨inside, folder, name, led, member, .inl rfl⟩
          · cases member
      · cases listed
  | revision view =>
      simp only [Snapshot.entries, Source.Revision.entries] at listed
      rcases checkRelative_cases directory with
        ⟨checked, inside⟩ | ⟨checked, -⟩ | ⟨_, checked, -⟩ <;> simp only [checked] at listed
      · split at listed <;> cases listed
        · rename_i folder led
          obtain ⟨actual, held, same⟩ := List.mem_map.mp (List.mem_mergeSort.mp member)
          obtain ⟨listedAs, sort⟩ := Entry.mk.inj same
          refine ⟨inside, folder, actual.name, led, ?_, .inr ⟨rfl, listedAs.symm⟩⟩
          rw [← sort]
          exact held
        · cases member
      · cases listed
      · cases listed

/-- A name in a listing can be a name in a directory, and does not look like a pattern if it is
that of a folder. -/
theorem Orderly.entries {directory name : String} {isFolder : Bool} {entries : List Entry}
    (orderly : snapshot.Orderly) (listed : snapshot.entries directory = .ok entries)
    (member : ⟨name, isFolder⟩ ∈ entries) :
    Path.IsName name ∧ (isFolder = true → Path.isWildcard name = false) := by
  obtain ⟨-, folder, actual, led, held, same⟩ := mem_entries listed member
  have proper : Path.IsName actual := (orderly.reach led).isName held
  have unmarked := (orderly.reach led).not_isWildcard held
  rcases same with same | ⟨-, same⟩
  · rw [same]
    exact ⟨proper, unmarked⟩
  · rw [same]
    exact ⟨Source.Revision.listedName_isName _ proper, fun sort =>
      Source.Revision.listedName_not_isWildcard _ proper (unmarked sort)⟩

theorem Lists.isName {directory name : String} (orderly : snapshot.Orderly)
    (lists : snapshot.Lists directory name) : Path.IsName name := by
  obtain ⟨entries, listed, member⟩ := lists
  exact (orderly.entries listed member).1

theorem Lists.inside {directory name : String} (lists : snapshot.Lists directory name) :
    Inside directory := by
  obtain ⟨entries, listed, member⟩ := lists
  exact (mem_entries listed member).1

/-- What is listed as a file is one, unless a revision lists another name than the file has. -/
theorem Lists.file {directory name : String} (orderly : snapshot.Orderly)
    (lists : snapshot.Lists directory name) :
    (∃ content, snapshot.reach (Path.steps directory ++ [name]) = .node (.file content)) ∨
      snapshot.isRevision = true ∧ name.toList.getLast? = some '"' := by
  obtain ⟨entries, listed, member⟩ := lists
  obtain ⟨-, folder, actual, led, held, same⟩ := mem_entries listed member
  have found : ∃ content,
      snapshot.reach (Path.steps directory ++ [actual]) = .node (.file content) := by
    obtain ⟨content, meant⟩ := (orderly.reach led).find_file held
    exact ⟨content, by simp [reach_append, led, Node.walk, meant]⟩
  rcases same with same | ⟨committed, same⟩
  · rw [same]
    exact .inl found
  · -- an escaped form ends in a quotation mark; any other listed name is the file's own
    by_cases marked : name.toList.getLast? = some '"'
    · exact .inr ⟨committed, marked⟩
    · have proper : Path.IsName actual := (orderly.reach led).isName held
      rw [same] at marked
      rw [same, Source.Revision.eq_of_listedName proper marked]
      exact .inl found

theorem disk_shown (view : Source.Disk) {path : String} {content : Content}
    (inside : Inside path) (led : view.reach (Path.steps path) = .node (.file content)) :
    (∀ error, view.read path = .error error → error.isLost = false) ∧
      ∀ error, view.localFile path = .error error → error.isLost = false := by
  rcases resolve_cases path with ⟨resolved, -⟩ | ⟨-, outside⟩
  · constructor <;> intro error failed
    · simp only [Source.Disk.read, resolved, led] at failed
      split at failed
      · cases failed
        rfl
      · cases content <;> cases failed
        rfl
    · simp only [Source.Disk.localFile, resolved, led] at failed
      cases failed
  · exact absurd inside outside

theorem revision_shown (view : Source.Revision) {path : String} {content : Content}
    (inside : Inside path) (ends : Path.endsInSlash path = false)
    (led : view.reach (Path.steps path) = .node (.file content)) :
    (∀ error, view.read path = .error error → error.isLost = false) ∧
      ∀ error, view.localFile path = .error error → error.isLost = false := by
  rcases checkRelative_cases path with ⟨checked, -⟩ | ⟨-, outside⟩ | ⟨text, checked, -⟩
  · have held : view.contents path = .ok content := by
      simp [Source.Revision.contents, checked, led, ends]
    constructor <;> intro error failed
    · simp only [Source.Revision.read, held] at failed
      cases content <;> cases failed
      rfl
    · simp only [Source.Revision.localFile, held] at failed
      cases failed
  · exact absurd inside outside
  · have held : view.contents path = .error (.git text) := by
      simp only [Source.Revision.contents, checked]
    constructor <;> intro error failed
    · simp only [Source.Revision.read, held] at failed
      cases failed
      rfl
    · simp only [Source.Revision.localFile, held] at failed
      cases failed
      rfl

theorem read_outside {path : String} (outside : ¬ Inside path) :
    snapshot.read path = .error (.outsideRoot path) := by
  cases snapshot with
  | disk view =>
      rcases resolve_cases path with ⟨-, inside⟩ | ⟨resolved, -⟩
      · exact absurd inside outside
      · simp only [Snapshot.read, Source.Disk.read, resolved]
  | revision view =>
      rcases checkRelative_cases path with ⟨-, inside⟩ | ⟨checked, -⟩ | ⟨_, -, inside⟩
      · exact absurd inside outside
      · simp only [Snapshot.read, Source.Revision.read, Source.Revision.contents, checked]
      · exact absurd inside outside

theorem readable_iff {path : String} (ends : Path.endsInSlash path = false) :
    snapshot.Readable path ↔ Inside path ∧ snapshot.HasFile path := by
  constructor
  · rintro ⟨hasFile, read, -⟩
    refine ⟨?_, hasFile⟩
    by_cases inside : Inside path
    · exact inside
    · cases read _ (read_outside inside)
  · rintro ⟨inside, content, led⟩
    cases snapshot with
    | disk view =>
        obtain ⟨read, localFile⟩ := disk_shown view inside led
        exact ⟨⟨content, led⟩, read, localFile⟩
    | revision view =>
        obtain ⟨read, localFile⟩ := revision_shown view inside ends led
        exact ⟨⟨content, led⟩, read, localFile⟩

/-- A path was put together from a directory and a name in its listing, and the name is no
escaped form; or it was given, and its name is in the listing of its directory. -/
inductive Found (snapshot : Snapshot) : String → Prop where
  | matched {directory name : String} (lists : snapshot.Lists directory name)
      (plain : name.toList.getLast? ≠ some '"') : Found snapshot (Path.join directory name)
  | named {path : String}
      (lists : snapshot.Lists (Path.splitFile path).1 (Path.splitFile path).2) :
      Found snapshot path

/-- What was found can be read back if its path does not start at the root, unless the path has
the escaped form of a name that no file has. -/
theorem Found.readable_iff {path : String} (orderly : snapshot.Orderly)
    (found : snapshot.Found path) :
    snapshot.Readable path ↔
      Path.isAbsolute path = false ∧
        (snapshot.isRevision = true → (Path.fileName path).toList.getLast? = some '"' →
          snapshot.HasFile path) := by
  -- however the file was found, its path is a listed name below the directory of the listing
  have parts : ∃ directory name, snapshot.Lists directory name ∧ Path.fileName path = name ∧
      Path.steps path = Path.steps directory ++ [name] ∧ Path.endsInSlash path = false ∧
      (".." ∈ Path.segments path → ".." ∈ Path.segments directory) := by
    cases found with
    | @matched directory name lists plain =>
        have proper : Path.IsName name := lists.isName orderly
        exact ⟨directory, name, lists, Path.fileName_join proper, Path.steps_join proper,
          Path.endsInSlash_join proper, Path.above_of_join proper⟩
    | named lists =>
        have proper : Path.IsName (Path.splitFile path).2 := lists.isName orderly
        exact ⟨_, _, lists, rfl, Path.steps_splitFile proper, Path.endsInSlash_splitFile proper,
          Path.above_of_splitFile proper⟩
  obtain ⟨directory, name, lists, last, steps, ends, above⟩ := parts
  have below : ".." ∉ Path.segments path := fun within => lists.inside.2 (above within)
  rw [Snapshot.readable_iff ends, last]
  constructor
  · rintro ⟨⟨relative, -⟩, hasFile⟩
    exact ⟨relative, fun _ _ => hasFile⟩
  · rintro ⟨relative, unescaped⟩
    refine ⟨⟨relative, below⟩, ?_⟩
    rcases lists.file orderly with held | ⟨committed, marked⟩
    · unfold HasFile
      rwa [steps]
    · exact unescaped committed marked

theorem mem_files {directory : String} {accepts : String → Bool} {found : List FileEntry}
    {file : FileEntry} (listed : snapshot.files directory accepts = .ok found)
    (member : file ∈ found) :
    snapshot.Lists directory file.name ∧ file.path = Path.join directory file.name ∧
      accepts file.name = true := by
  obtain ⟨entries, shown, rfl⟩ := Outcome.map_eq_ok.mp listed
  obtain ⟨⟨name, isFolder⟩, kept, rfl⟩ := List.mem_map.mp member
  obtain ⟨held, wanted⟩ := List.mem_filter.mp kept
  obtain ⟨sort, accepted⟩ : isFolder = false ∧ accepts name = true := by simpa using wanted
  subst sort
  exact ⟨⟨entries, shown, held⟩, rfl, accepted⟩

theorem mem_folders {directory : String} {accepts : String → Bool} {found : List FileEntry}
    {name : String} (orderly : snapshot.Orderly)
    (listed : snapshot.folders directory accepts = .ok found)
    (member : name ∈ found.map (·.name)) : Path.IsName name ∧ Path.isWildcard name = false := by
  obtain ⟨entries, shown, rfl⟩ := Outcome.map_eq_ok.mp listed
  simp only [List.map_map, List.mem_map, Function.comp_apply] at member
  obtain ⟨⟨name, isFolder⟩, kept, rfl⟩ := member
  obtain ⟨held, wanted⟩ := List.mem_filter.mp kept
  obtain ⟨sort, -⟩ : isFolder = true ∧ accepts name = true := by simpa using wanted
  obtain ⟨proper, unmarked⟩ := orderly.entries shown held
  exact ⟨proper, unmarked sort⟩

end Snapshot

/-- A tree has the folders of its working directory or of a commit. -/
theorem Tree.snapshot_orderly (tree : Tree) {workspace : Workspace}
    (disk : workspace.disk.Orderly)
    (commits : ∀ ref folder, workspace.commit? ref = some folder → folder.Orderly) :
    (tree.snapshot workspace).Orderly := by
  have placed : ∀ {top : Folder} {names : Option (List String)}, top.Orderly →
      ∀ folder, placeAt top names = .node (.folder folder) → folder.Orderly := by
    intro top names orderly folder led
    cases names with
    | none => cases led
    | some names => exact Node.walk_orderly orderly led
  unfold snapshot
  cases tree.ref with
  | none => exact placed disk
  | some ref =>
      refine placed ?_
      cases found : workspace.commit? ref with
      | none => trivial
      | some folder => exact commits ref folder found

end Rollout
