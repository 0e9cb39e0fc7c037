import Rollout.Proofs.Source.Listing

/-!
Trees keep to their folder. A path is refused on disk if and only if it is refused at a ref,
whatever is asked about it; one that is not refused leads to the root of the tree or below it, and
the file system finds there what the tree finds.
-/

namespace Rollout

namespace Path

variable {path name : String}

theorem isAbsolute_append (filled : path ≠ "") (rest : String) :
    isAbsolute (path ++ rest) = isAbsolute path := by
  obtain ⟨c, more, letters⟩ := List.exists_cons_of_ne_nil (mt String.toList_eq_nil_iff.mp filled)
  simp [isAbsolute, letters]

theorem append_slash_ne (path : String) : path ++ "/" ≠ "" := by
  intro same
  have letters := congrArg String.toList same
  simp at letters

theorem head_segments_append (before after : String) :
    (segments (before ++ "/" ++ after)).head? = (segments before).head? := by
  have filled : segments before ≠ [] := Text.splitAt_ne_nil before
  obtain ⟨first, rest, parts⟩ := List.exists_cons_of_ne_nil filled
  rw [segments_append, parts]
  rfl

theorem segments_slash (path : String) :
    segments (path ++ "/") = segments path ++ [""] ∧
      (segments (path ++ "/")).head? = (segments path).head? := by
  have whole : path ++ "/" = path ++ "/" ++ "" := String.append_empty.symm
  rw [whole, head_segments_append, segments_append]
  exact ⟨rfl, rfl⟩

/-- A slash at the end says nothing, unless nothing stands before it. -/
theorem components_slash (filled : path ≠ "") : components (path ++ "/") = components path := by
  obtain ⟨parts, head⟩ := segments_slash path
  unfold components
  dsimp only
  rw [head, isAbsolute_append filled, parts, List.filterMap_append]
  simp [component?]

theorem IsName.component (proper : IsName name) : component? name = some (.name name) := by
  simp [component?, proper.filled, proper.here, proper.above]

theorem components_append (before : String) (proper : IsName name) :
    components (before ++ "/" ++ name) = components (before ++ "/") ++ [.name name] := by
  obtain ⟨parts, head⟩ := segments_slash before
  unfold components
  dsimp only
  rw [head_segments_append, head, isAbsolute_append (append_slash_ne before), segments_append,
    parts, proper.segments, List.filterMap_append, List.filterMap_append]
  have silent : [""].filterMap component? = [] := rfl
  have said : [name].filterMap component? = [.name name] :=
    List.filterMap_cons_some proper.component
  rw [silent, said, List.append_nil]
  split
  · rfl
  · split <;> rfl

theorem exists_slash (ends : endsInSlash path = true) : ∃ before, path = before ++ "/" := by
  have last : path.toList.getLast? = some '/' := by simpa [endsInSlash] using ends
  obtain ⟨before, letters⟩ := List.getLast?_eq_some_iff.mp last
  exact ⟨String.ofList before, String.ext (by simp [letters])⟩

theorem IsName.components (proper : IsName name) : components name = [.name name] := by
  have relative : isAbsolute name = false := by
    refine isAbsolute_of_filled ?_
    rw [proper.segments]
    simpa [eq_comm] using proper.filled
  simp [Path.components, relative, proper.segments, proper.component, proper.here]

/-- A step of a path that is not refused is a name. -/
theorem isName_of_step (inside : Snapshot.Inside path) {step : String}
    (member : step ∈ steps path) : IsName step := by
  obtain ⟨among, kept⟩ := List.mem_filter.mp member
  obtain ⟨filled, here⟩ : step ≠ "" ∧ step ≠ "." := by simpa using kept
  refine ⟨filled, here, ?_, Text.not_mem_splitAt among⟩
  rintro rfl
  exact inside.2 among

/-- A path starts at the root of the file system if its reading does. -/
theorem isAbsolute_iff_components : isAbsolute path = true ↔ .root ∈ components path := by
  have silent : Component.root ∉ (segments path).filterMap component? := by
    intro member
    obtain ⟨segment, -, said⟩ := List.mem_filterMap.mp member
    unfold component? at said
    split at said
    · cases said
    · split at said <;> cases said
  unfold components
  dsimp only
  split
  · simp [*]
  · split <;> simp [*]

end Path

namespace Source.Disk

open Rollout.Path

variable {path name : String} {names : List String}

theorem components_push (path : String) (proper : IsName name) :
    components (push path name) = components path ++ [.name name] := by
  unfold push
  split
  · rename_i joined
    rcases joined with rfl | ends
    · rw [String.empty_append, proper.components]
      rfl
    · obtain ⟨before, rfl⟩ := exists_slash ends
      exact components_append before proper
  · rename_i apart
    rw [components_append path proper, components_slash (not_or.mp apart).1]

theorem components_foldl_push (path : String) (proper : ∀ name ∈ names, IsName name) :
    components (names.foldl push path) = components path ++ names.map .name := by
  induction names generalizing path with
  | nil => simp
  | cons name rest ih =>
      obtain ⟨first, later⟩ := List.forall_mem_cons.mp proper
      rw [List.foldl_cons, ih (push path name) later, components_push path first,
        List.append_assoc]
      rfl

/-- The full path of a step after another below the root is, to a file system, that of the root
with the steps behind it. -/
theorem components_fullPath (disk : Disk) (proper : ∀ name ∈ names, IsName name) :
    components (disk.fullPath names) = components disk.root ++ names.map .name :=
  components_foldl_push disk.root proper

/-- A path is pushed onto with one slash between, whether it ends in one or not. -/
theorem exists_base (filled : path ≠ "") :
    ∃ base, (path = base ∨ path = base ++ "/") ∧ ∀ name, push path name = base ++ "/" ++ name := by
  cases ends : endsInSlash path with
  | true =>
      obtain ⟨before, rfl⟩ := exists_slash ends
      exact ⟨before, .inr rfl, fun name => if_pos (.inr ends)⟩
  | false => exact ⟨path, .inl rfl, fun name => if_neg (by simp [filled, ends])⟩

theorem segments_foldl_push {base : String} (pushes : ∀ name, push path name = base ++ "/" ++ name)
    (filled : names ≠ []) (proper : ∀ name ∈ names, IsName name) :
    segments (names.foldl push path) = segments base ++ names := by
  induction names generalizing path base with
  | nil => exact absurd rfl filled
  | cons name rest ih =>
      obtain ⟨first, later⟩ := List.forall_mem_cons.mp proper
      have pushed : segments (push path name) = segments base ++ [name] := by
        rw [pushes, segments_append, first.segments]
      rw [List.foldl_cons]
      rcases rest with _ | ⟨second, more⟩
      · exact pushed
      · -- what ends in a name does not end in a slash
        have ends : endsInSlash (push path name) = false := by
          rw [pushes]
          exact endsInSlash_append _ first.filled first.free
        have other : push path name ≠ "" := by
          rw [pushes, String.append_assoc]
          exact fun same => by simpa using congrArg String.toList same
        rw [ih (fun next => if_neg (by simp [other, ends])) (List.cons_ne_nil _ _) later, pushed,
          List.append_assoc]
        rfl

end Source.Disk

namespace Workspace

variable {disk : Folder} {passed names : List String} {before after : List String}

theorem locateFrom_cons (disk : Folder) (passed : List String) (segment : String)
    (rest : List String) :
    locateFrom disk passed (segment :: rest) =
      if segment = "" ∨ segment = "." then locateFrom disk passed rest
      else if segment = ".." then
        match passed with
        | [] => none
        | _ :: above => locateFrom disk above rest
      else if (disk.subfolder? (segment :: passed).reverse).isSome then
        locateFrom disk (segment :: passed) rest
      else none :=
  rfl

theorem locateFrom_append (disk : Folder) (passed before after : List String) :
    locateFrom disk passed (before ++ after) =
      (locateFrom disk passed before).bind fun names => locateFrom disk names.reverse after := by
  induction before generalizing passed with
  | nil => simp [locateFrom]
  | cons segment rest ih =>
      rw [List.cons_append, locateFrom_cons, locateFrom_cons]
      split
      · exact ih passed
      · split
        · cases passed with
          | nil => rfl
          | cons last above => exact ih above
        · split
          · exact ih _
          · rfl

/-- Behind segments that lead to a folder, what is there is what is there from the folder on. -/
theorem placeFrom_located {last : Folder}
    (folder : (Node.folder disk).walk passed.reverse = .node (.folder last))
    (located : locateFrom disk passed before = some names) :
    placeFrom disk passed (before ++ after) = placeFrom disk names.reverse after := by
  induction before generalizing passed last with
  | nil =>
      cases located
      simp
  | cons segment rest ih =>
      rw [locateFrom_cons] at located
      rw [List.cons_append]
      conv_lhs => rw [placeFrom.eq_def]
      dsimp only
      rw [folder]
      dsimp only
      split
      · rename_i silent
        rw [if_pos silent] at located
        exact ih folder located
      · rename_i said
        rw [if_neg said] at located
        split
        · rename_i up
          rw [if_pos up] at located
          cases passed with
          | nil => cases located
          | cons name above =>
              have outer : ∃ outer, (Node.folder disk).walk above.reverse =
                  .node (.folder outer) := by
                rw [List.reverse_cons, Node.walk_append] at folder
                split at folder
                · rename_i node led
                  cases node with
                  | file content => cases folder
                  | folder outer => exact ⟨outer, led⟩
                · rename_i other
                  exact absurd folder (other _)
              obtain ⟨outer, led⟩ := outer
              exact ih led located
        · rename_i down
          rw [if_neg down] at located
          split at located
          · rename_i deeper
            unfold Folder.subfolder? at deeper
            split at deeper
            · rename_i inner led
              exact ih led located
            · cases deeper
          · cases located

/-- Names lead through the file system as they lead through its folders. -/
theorem placeFrom_names (proper : ∀ name ∈ names, Path.IsName name) :
    placeFrom disk passed names = (Node.folder disk).walk (passed.reverse ++ names) := by
  induction names generalizing passed with
  | nil => simp [placeFrom]
  | cons name rest ih =>
      obtain ⟨first, later⟩ := List.forall_mem_cons.mp proper
      unfold placeFrom
      rw [Node.walk_append]
      cases led : (Node.folder disk).walk passed.reverse with
      | nothing => rfl
      | blocked => rfl
      | node node =>
          cases node with
          | file content => rfl
          | folder last =>
              dsimp only
              rw [if_neg (by simp [first.filled, first.here]), if_neg first.above, ih later,
                List.reverse_cons, List.append_assoc, Node.walk_append, led]
              rfl

/-- A full path names on the file system what its names lead to from the folder that the root
names. -/
theorem place_foldl_push {workspace : Workspace} {root : String} {top : List String}
    (filled : root ≠ "") (located : workspace.locate root = some top)
    (proper : ∀ name ∈ names, Path.IsName name) :
    workspace.place (names.foldl Source.Disk.push root) =
      (Node.folder workspace.disk).walk (top ++ names) := by
  unfold locate at located
  split at located
  · cases located
  · rename_i relative
    have relativeRoot : Path.Component.root ∉ Path.components root :=
      mt Path.isAbsolute_iff_components.mpr relative
    have read := Source.Disk.components_foldl_push root proper
    have relativeFull : Path.isAbsolute (names.foldl Source.Disk.push root) ≠ true := by
      rw [ne_eq, Path.isAbsolute_iff_components, read]
      simp [relativeRoot]
    have start : (Node.folder workspace.disk).walk ([] : List String).reverse =
      .node (.folder workspace.disk) := rfl
    rcases names with _ | ⟨name, rest⟩
    · rw [List.foldl_nil, place, if_neg (by simp [filled, relative]),
        ← List.append_nil (Path.segments root), placeFrom_located start located,
        placeFrom_names (List.forall_mem_nil _), List.reverse_reverse]
    · have other : (name :: rest).foldl Source.Disk.push root ≠ "" := by
        intro same
        have none : Path.components "" = [] := by decide
        rw [same, none] at read
        simp at read
      obtain ⟨base, either, pushes⟩ := Source.Disk.exists_base filled
      have here : locateFrom workspace.disk [] (Path.segments base) = some top := by
        rcases either with rfl | rfl
        · exact located
        · rw [(Path.segments_slash base).1, locateFrom_append] at located
          obtain ⟨names, found, same⟩ := Option.bind_eq_some_iff.mp located
          have ended : locateFrom workspace.disk names.reverse [""] =
              some names.reverse.reverse := rfl
          rw [found, ← List.reverse_reverse names, ← ended]
          exact same
      rw [place, if_neg (not_or.mpr ⟨other, relativeFull⟩),
        Source.Disk.segments_foldl_push pushes (List.cons_ne_nil _ _) proper,
        placeFrom_located start here, placeFrom_names proper, List.reverse_reverse]

end Workspace

namespace Listing

mutual

/-- The paths of all files and folders in a listing, its own first. -/
def paths : Listing → List String
  | mk path _ files folders => path :: (files.map (·.path) ++ pathsAll folders)

def pathsAll : List Listing → List String
  | [] => []
  | listing :: rest => paths listing ++ pathsAll rest

end

end Listing

namespace Snapshot

/-- What can be asked about a path. -/
inductive Question where
  | files (accepts : String → Bool)
  | folders (accepts : String → Bool)
  | list (accepts : String → Bool)
  | read
  | localFile

namespace Question

def Fails (snapshot : Snapshot) (path : String) (error : SourceError) : Question → Prop
  | files accepts => snapshot.files path accepts = .error error
  | folders accepts => snapshot.folders path accepts = .error error
  | list accepts => snapshot.list path accepts = .error error
  | read => snapshot.read path = .error error
  | localFile => snapshot.localFile path = .error error

/-- The answer has the path of a file or a folder, or of a file that was made for it. -/
def Tells (snapshot : Snapshot) (path told : String) : Question → Prop
  | files accepts => ∃ found, snapshot.files path accepts = .ok found ∧ told ∈ found.map (·.path)
  | folders accepts =>
      ∃ found, snapshot.folders path accepts = .ok found ∧ told ∈ found.map (·.path)
  | list accepts => ∃ listing, snapshot.list path accepts = .ok listing ∧ told ∈ listing.paths
  | read => False
  | localFile =>
      ∃ file, snapshot.localFile path = .ok file ∧ file.temporary = true ∧ file.path = told

end Question

/-- To list the first directory at full depth is to look into the second. -/
inductive Visits (snapshot : Snapshot) : String → String → Prop where
  | here (directory : String) : Visits snapshot directory directory
  | inner {directory name last : String} {entries : List Entry}
      (listed : snapshot.entries directory = .ok entries) (member : ⟨name, true⟩ ∈ entries)
      (later : Visits snapshot (Path.join directory name) last) : Visits snapshot directory last

variable {snapshot : Snapshot} {path directory other : String}

theorem entries_refused_iff :
    snapshot.entries directory = .error (.outsideRoot other) ↔
      ¬ Inside directory ∧ other = directory := by
  cases snapshot with
  | disk view =>
      simp only [entries, Source.Disk.entries]
      rcases resolve_cases directory with ⟨resolved, inside⟩ | ⟨resolved, outside⟩ <;>
        simp only [resolved]
      · refine iff_of_false ?_ fun refused => refused.1 inside
        split
        · simp
        · split <;> simp
      · simp [outside, eq_comm]
  | revision view =>
      simp only [entries, Source.Revision.entries]
      rcases checkRelative_cases directory with
        ⟨checked, inside⟩ | ⟨checked, outside⟩ | ⟨text, checked, inside⟩ <;> simp only [checked]
      · refine iff_of_false ?_ fun refused => refused.1 inside
        split <;> simp
      · simp [outside, eq_comm]
      · exact iff_of_false (by simp) fun refused => refused.1 inside

theorem contents_refused_iff (revision : Source.Revision) :
    revision.contents path = .error (.outsideRoot other) ↔ ¬ Inside path ∧ other = path := by
  unfold Source.Revision.contents
  rcases checkRelative_cases path with
    ⟨checked, inside⟩ | ⟨checked, outside⟩ | ⟨text, checked, inside⟩ <;> simp only [checked]
  · refine iff_of_false ?_ fun refused => refused.1 inside
    split
    · simp
    · split <;> simp
    · simp
  · simp [outside, eq_comm]
  · exact iff_of_false (by simp) fun refused => refused.1 inside

theorem read_refused_iff :
    snapshot.read path = .error (.outsideRoot other) ↔ ¬ Inside path ∧ other = path := by
  cases snapshot with
  | disk view =>
      simp only [read, Source.Disk.read]
      rcases resolve_cases path with ⟨resolved, inside⟩ | ⟨resolved, outside⟩ <;>
        simp only [resolved]
      · refine iff_of_false ?_ fun refused => refused.1 inside
        split
        · simp
        · split <;> simp
      · simp [outside, eq_comm]
  | revision view =>
      rw [← contents_refused_iff view]
      simp only [read, Source.Revision.read]
      split <;> simp [*]

theorem localFile_refused_iff :
    snapshot.localFile path = .error (.outsideRoot other) ↔ ¬ Inside path ∧ other = path := by
  cases snapshot with
  | disk view =>
      simp only [localFile, Source.Disk.localFile]
      rcases resolve_cases path with ⟨resolved, inside⟩ | ⟨resolved, outside⟩ <;>
        simp only [resolved]
      · refine iff_of_false ?_ fun refused => refused.1 inside
        split <;> simp
      · simp [outside, eq_comm]
  | revision view => exact Outcome.map_eq_error.trans (contents_refused_iff view)

theorem listEach_error {list : String → Except SourceError Listing} {directories : List String}
    {error : SourceError} (failed : listEach list directories = .error error) :
    ∃ directory ∈ directories, list directory = .error error := by
  induction directories with
  | nil => cases failed
  | cons directory rest ih =>
      unfold listEach at failed
      split at failed
      · rename_i fault here
        cases failed
        exact ⟨directory, List.mem_cons_self, here⟩
      · obtain ⟨later, member, there⟩ := ih (Outcome.map_eq_error.mp failed)
        exact ⟨later, List.mem_cons_of_mem _ member, there⟩

/-- Listing a directory at full depth fails as looking into one of those in it does. -/
theorem listTo_error {accepts : String → Bool} {depth : Nat} {error : SourceError}
    (failed : snapshot.listTo accepts depth directory = .error error) :
    ∃ last, snapshot.Visits directory last ∧ snapshot.entries last = .error error := by
  induction depth generalizing directory with
  | zero =>
      unfold listTo at failed
      split at failed
      · rename_i fault shown
        cases failed
        exact ⟨directory, .here directory, shown⟩
      · cases failed
  | succ depth ih =>
      unfold listTo at failed
      split at failed
      · rename_i fault shown
        cases failed
        exact ⟨directory, .here directory, shown⟩
      · rename_i entries shown
        obtain ⟨below, among, deeper⟩ := listEach_error (Outcome.map_eq_error.mp failed)
        obtain ⟨name, member, rfl⟩ := mem_below among
        obtain ⟨last, visits, there⟩ := ih deeper
        exact ⟨last, .inner shown member visits, there⟩

/-- What is listed in a directory lies inside the tree as the directory does. -/
theorem Tidy.join_inside (tidy : snapshot.Tidy) {entries : List Entry} {name : String}
    {isFolder : Bool} (listed : snapshot.entries directory = .ok entries)
    (member : ⟨name, isFolder⟩ ∈ entries) : Inside (Path.join directory name) :=
  Path.inside_join (entries_eq_ok listed).1 (tidy.listed_name listed member).1

theorem Tidy.found_inside (tidy : snapshot.Tidy) {entries : List Entry} {wanted : Entry → Bool}
    {told : String} (listed : snapshot.entries directory = .ok entries)
    (member : told ∈ ((entries.filter wanted).map fun entry =>
      (⟨Path.join directory entry.name, entry.name⟩ : FileEntry)).map (·.path)) : Inside told := by
  simp only [List.map_map, List.mem_map, List.mem_filter, Function.comp_apply] at member
  obtain ⟨⟨name, isFolder⟩, ⟨held, -⟩, rfl⟩ := member
  exact tidy.join_inside listed held

theorem Visits.inside (tidy : snapshot.Tidy) {first last : String} (inside : Inside first)
    (visits : snapshot.Visits first last) : Inside last := by
  induction visits with
  | here directory => exact inside
  | inner listed member _ ih =>
      exact ih (tidy.join_inside listed member)

theorem listTo_refused {accepts : String → Bool} {depth : Nat} (outside : ¬ Inside directory) :
    snapshot.listTo accepts depth directory = .error (.outsideRoot directory) := by
  have refused : snapshot.entries directory = .error (.outsideRoot directory) :=
    entries_refused_iff.mpr ⟨outside, rfl⟩
  unfold listTo
  rw [refused]

theorem mem_pathsAll {listings : List Listing} {told : String}
    (member : told ∈ Listing.pathsAll listings) : ∃ listing ∈ listings, told ∈ listing.paths := by
  induction listings with
  | nil => cases member
  | cons listing rest ih =>
      rcases List.mem_append.mp member with here | later
      · exact ⟨listing, List.mem_cons_self, here⟩
      · obtain ⟨deeper, among, held⟩ := ih later
        exact ⟨deeper, List.mem_cons_of_mem _ among, held⟩

theorem mem_listEach {list : String → Except SourceError Listing} {directories : List String}
    {listings : List Listing} (listed : listEach list directories = .ok listings)
    {listing : Listing} (member : listing ∈ listings) :
    ∃ directory, list directory = .ok listing := by
  have each := listEach_eq_ok listed
  clear listed
  induction each with
  | nil => cases member
  | cons here _ ih =>
      rcases List.mem_cons.mp member with rfl | later
      · exact ⟨_, here⟩
      · exact ih later

/-- Every path in a listing at full depth is one that the tree does not refuse. -/
theorem Tidy.listTo_inside (tidy : snapshot.Tidy) {accepts : String → Bool} {depth : Nat}
    {listing : Listing} (listed : snapshot.listTo accepts depth directory = .ok listing)
    {told : String} (member : told ∈ listing.paths) : Inside told := by
  induction depth generalizing directory listing with
  | zero =>
      unfold listTo at listed
      split at listed
      · cases listed
      · rename_i entries shown
        cases listed
        rcases List.mem_cons.mp member with rfl | later
        · exact (entries_eq_ok shown).1
        · rcases List.mem_append.mp later with file | below
          · exact tidy.found_inside shown file
          · cases below
  | succ depth ih =>
      unfold listTo at listed
      split at listed
      · cases listed
      · rename_i entries shown
        obtain ⟨listings, each, rfl⟩ := Outcome.map_eq_ok.mp listed
        rcases List.mem_cons.mp member with rfl | later
        · exact (entries_eq_ok shown).1
        · rcases List.mem_append.mp later with file | below
          · exact tidy.found_inside shown file
          · obtain ⟨deeper, among, held⟩ := mem_pathsAll below
            obtain ⟨inner, one⟩ := mem_listEach each among
            exact ih one held

theorem disk_localFile {view : Source.Disk} {file : LocalFile}
    (made : view.localFile path = .ok file) :
    file.path = view.fullPath (Path.steps path) ∧ file.temporary = false := by
  unfold Source.Disk.localFile at made
  rcases resolve_cases path with ⟨resolved, -⟩ | ⟨resolved, -⟩ <;> simp only [resolved] at made
  · split at made
    · cases made
      exact ⟨rfl, rfl⟩
    · cases made
  · cases made

theorem revision_localFile {view : Source.Revision} {file : LocalFile}
    (made : view.localFile path = .ok file) : file.path = path ∧ Inside path := by
  obtain ⟨content, held, rfl⟩ := Outcome.map_eq_ok.mp made
  refine ⟨rfl, ?_⟩
  by_contra outside
  rw [(contents_refused_iff view).mpr ⟨outside, rfl⟩] at held
  cases held

/-- A path leads out of the tree just when a question about it is refused, whatever is asked. -/
theorem refused_iff (question : Question) :
    question.Fails snapshot path (.outsideRoot path) ↔ ¬ Inside path := by
  cases question with
  | files accepts | folders accepts =>
      refine Outcome.map_eq_error.trans (entries_refused_iff.trans ?_)
      simp
  | list accepts =>
      refine ⟨fun failed => ?_, listTo_refused⟩
      obtain ⟨last, -, refused⟩ := listTo_error failed
      obtain ⟨outside, rfl⟩ := entries_refused_iff.mp refused
      exact outside
  | read => exact read_refused_iff.trans (by simp)
  | localFile => exact localFile_refused_iff.trans (by simp)

theorem Tidy.accepts (tidy : snapshot.Tidy) (inside : Inside path) (question : Question)
    (other : String) : ¬ question.Fails snapshot path (.outsideRoot other) := by
  intro failed
  cases question with
  | files accepts | folders accepts =>
      exact (entries_refused_iff.mp (Outcome.map_eq_error.mp failed)).1 inside
  | list accepts =>
      obtain ⟨last, visits, refused⟩ := listTo_error failed
      exact (entries_refused_iff.mp refused).1 (visits.inside tidy inside)
  | read => exact (read_refused_iff.mp failed).1 inside
  | localFile => exact (localFile_refused_iff.mp failed).1 inside

theorem Tidy.tells (tidy : snapshot.Tidy) {question : Question} {told : String}
    (tells : question.Tells snapshot path told) : Inside told := by
  cases question with
  | files accepts | folders accepts =>
      obtain ⟨found, answer, member⟩ := tells
      obtain ⟨entries, listed, rfl⟩ := Outcome.map_eq_ok.mp answer
      exact tidy.found_inside listed member
  | list accepts =>
      obtain ⟨listing, answer, member⟩ := tells
      exact tidy.listTo_inside answer member
  | read => cases tells
  | localFile =>
      obtain ⟨file, answer, temporary, rfl⟩ := tells
      cases snapshot with
      | disk view =>
          rw [(disk_localFile answer).2] at temporary
          cases temporary
      | revision view =>
          obtain ⟨same, inside⟩ := revision_localFile answer
          rwa [same]

end Snapshot

namespace Source.Disk

variable {disk : Disk} {path first second : String}

/-- Two paths name the same file or folder, whatever is asked about it. -/
structure Alike (disk : Disk) (first second : String) : Prop where
  entries : disk.entries first = disk.entries second
  read : Outcome.Agree (disk.read first) (disk.read second)
  localFile : Outcome.Agree (disk.localFile first) (disk.localFile second)

theorem alike_of_steps (disk : Disk) (one : Snapshot.Inside first) (two : Snapshot.Inside second)
    (same : Path.steps first = Path.steps second) : disk.Alike first second := by
  have whole : first.toList.contains '\x00' = second.toList.contains '\x00' := by
    rw [Bool.eq_iff_iff, List.contains_iff_mem, List.contains_iff_mem,
      Path.mem_iff_steps (by decide) (by decide), Path.mem_iff_steps (by decide) (by decide), same]
  constructor
  · unfold Disk.entries
    rw [resolve_inside one, resolve_inside two, same, whole]
  · unfold Disk.read
    rw [resolve_inside one, resolve_inside two, same, whole]
    dsimp only
    split
    · rfl
    · split <;> rfl
  · unfold Disk.localFile
    rw [resolve_inside one, resolve_inside two, same]
    dsimp only
    split <;> rfl

/-- Where an accepted path leads on disk: to the root or below it, by the segments of the path that
lead somewhere. -/
structure Leads (disk : Disk) (path : String) : Prop where
  resolve : resolve path = .ok (Path.steps path)
  proper : ∀ step ∈ Path.steps path, Path.IsName step
  below : Path.components (disk.fullPath (Path.steps path)) =
    Path.components disk.root ++ (Path.steps path).map .name
  localFile : ∀ file, disk.localFile path = .ok file →
    file.path = disk.fullPath (Path.steps path)
  same : ∀ other, Snapshot.Inside other →
    (disk.fullPath (Path.steps other) = disk.fullPath (Path.steps path) ↔
      Path.steps other = Path.steps path)
  alike : ∀ other, Snapshot.Inside other → Path.steps other = Path.steps path →
    disk.Alike other path

theorem leads (disk : Disk) (inside : Snapshot.Inside path) : disk.Leads path where
  resolve := resolve_inside inside
  proper _ := Path.isName_of_step inside
  below := disk.components_fullPath fun _ => Path.isName_of_step inside
  localFile _ made := (Snapshot.disk_localFile made).1
  same other within := by
    refine ⟨fun same => ?_, congrArg disk.fullPath⟩
    have read := congrArg Path.components same
    rw [disk.components_fullPath fun _ => Path.isName_of_step within,
      disk.components_fullPath fun _ => Path.isName_of_step inside] at read
    exact List.map_injective_iff.mpr (fun _ _ => Path.Component.name.inj)
      (List.append_cancel_left read)
  alike _ within same := disk.alike_of_steps within inside same

end Source.Disk

/-- The file system has at a full path what the tree has at the names, if the tree was opened
there. -/
theorem Tree.openDisk_place {workspace : Workspace} {location : Location} {tree : Tree}
    (opened : openDisk workspace location = .ok tree) (filled : location.path ≠ "") :
    ∃ disk : Source.Disk, tree.snapshot workspace = .disk disk ∧ disk.root = location.path ∧
      ∀ names : List String, (∀ name ∈ names, Path.IsName name) →
        workspace.place (disk.fullPath names) = disk.reach names := by
  unfold openDisk at opened
  split at opened
  · cases opened
  · rename_i top located
    cases opened
    refine ⟨⟨location.path, placeAt workspace.disk (some top)⟩, ?_, rfl, fun names proper => ?_⟩
    · simp only [snapshot, located]
    · rw [Source.Disk.fullPath, Workspace.place_foldl_push filled located proper, Node.walk_append]
      rfl

namespace Snapshot

/-- A script two folders below the working directory. -/
def sown : Workspace :=
  { disk := .folder "tree" (.folder "seeds" (.file "one.sql" (.text "select 1") .nil) .nil) .nil }

end Snapshot

end Rollout
