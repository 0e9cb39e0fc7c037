import Rollout.Proofs.Plan.Expand
import Rollout.Proofs.Source.Listing

/-!
What the expansion of a pattern comes to, exactly: in a tree whose folders have no names that could
be taken for patterns, every file whose path the pattern spells, each once, and nothing else.
-/

namespace Rollout

namespace Glob

/-- A segment that is no pattern accepts itself. -/
theorem accepts_literal {segment name : String} (literal : Path.isWildcard segment = false) :
    (ofSegment segment).accepts name = true ↔ name = segment := by
  obtain ⟨question, asterisk, brace⟩ := Path.not_isWildcard_iff.mp literal
  rw [accepts_iff, ofSegment, read_letters question asterisk brace, matches_letters]
  exact String.toList_inj

end Glob

theorem Path.IsName.plain {name : String} (proper : Path.IsName name) : Plan.Plain name :=
  ⟨proper.filled, proper.here, proper.free⟩

namespace Plan

section Gather

variable {Value Result Fault : Type} {find : Value → Except Fault (List Result)}
  {values : List Value} {results : List Result}

theorem gather_ok (each : ∀ value ∈ values, ∃ found, find value = .ok found) :
    ∃ results, gather find values = .ok results := by
  induction values with
  | nil => exact ⟨[], rfl⟩
  | cons value rest ih =>
      obtain ⟨⟨found, first⟩, others⟩ := List.forall_mem_cons.mp each
      obtain ⟨results, later⟩ := ih others
      exact ⟨found ++ results, by rw [gather, first, later]; rfl⟩

theorem mem_gather_of {value : Value} {result : Result}
    (gathered : gather find values = .ok results) (member : value ∈ values)
    (holds : ∀ found, find value = .ok found → result ∈ found) : result ∈ results := by
  induction values generalizing results with
  | nil => cases member
  | cons first rest ih =>
      unfold gather at gathered
      split at gathered
      · cases gathered
      · rename_i found here
        obtain ⟨others, later, rfl⟩ := Outcome.map_eq_ok.mp gathered
        rcases List.mem_cons.mp member with rfl | deeper
        · exact List.mem_append_left _ (holds found here)
        · exact List.mem_append_right _ (ih later deeper)

/-- Results are distinct if those for one value are, and those for two have nothing in common. -/
theorem gather_nodup (distinct : values.Nodup) (gathered : gather find values = .ok results)
    (each : ∀ value ∈ values, ∀ found, find value = .ok found → found.Nodup)
    (apart : ∀ first ∈ values, ∀ second ∈ values, ∀ one two result, find first = .ok one →
      find second = .ok two → result ∈ one → result ∈ two → first = second) : results.Nodup := by
  induction values generalizing results with
  | nil =>
      cases gathered
      exact .nil
  | cons value rest ih =>
      obtain ⟨fresh, later⟩ := List.nodup_cons.mp distinct
      unfold gather at gathered
      split at gathered
      · cases gathered
      · rename_i found here
        obtain ⟨others, more, rfl⟩ := Outcome.map_eq_ok.mp gathered
        refine List.nodup_append.mpr ⟨each value List.mem_cons_self found here, ?_, ?_⟩
        · exact ih later more (fun value member => each value (List.mem_cons_of_mem _ member))
            fun first one second two => apart first (List.mem_cons_of_mem _ one) second
              (List.mem_cons_of_mem _ two)
        · rintro result left _ right rfl
          obtain ⟨other, member, results, there, held⟩ := mem_gather more right
          have same := apart value List.mem_cons_self other (List.mem_cons_of_mem _ member)
            found results result here there left held
          exact fresh (same ▸ member)

end Gather

/-- Names that are no patterns are matched once. -/
theorem settleSegment_unmarked {names : List String} {depth : Nat} {segment : String}
    (unmarked : ∀ name ∈ names, Path.isWildcard name = false)
    (wild : Path.isWildcard segment = true) :
    settleSegment names (depth + 1) segment =
      names.filter (Glob.ofSegment segment).accepts := by
  have once : ∀ name ∈ names.filter (Glob.ofSegment segment).accepts,
      settleSegment names depth name = [name] := by
    intro name kept
    unfold settleSegment
    rw [if_neg (by simp [unmarked name (List.mem_of_mem_filter kept)])]
  unfold settleSegment
  rw [if_pos wild]
  dsimp only
  rw [List.flatMap_congr once]
  simp

section Written

variable {directory : String} {names : List String}

theorem Written.ofSegments (written : Written directory names) :
    directory = Path.ofSegments names := by
  rcases written with ⟨rfl, rfl⟩ | ⟨-, -, -, rfl⟩
  · rfl
  · exact (Path.ofSegments_segments directory).symm

theorem Written.unique {others : List String} (written : Written directory names)
    (also : Written directory others) : names = others := by
  rcases written with ⟨root, rfl⟩ | ⟨inside, -, -, rfl⟩ <;>
    rcases also with ⟨top, rfl⟩ | ⟨within, -, -, rfl⟩
  · rfl
  · exact absurd root within
  · exact absurd top inside
  · rfl

theorem Written.of_names (proper : ∀ name ∈ names, Path.IsName name) :
    Written (Path.ofSegments names) names := by
  cases names with
  | nil => exact .inl ⟨rfl, rfl⟩
  | cons name rest =>
      have segments : Path.segments (Path.ofSegments (name :: rest)) = name :: rest :=
        Text.splitAt_intercalate (List.cons_ne_nil _ _) fun name member => (proper name member).free
      have plain : ∀ part ∈ Path.segments (Path.ofSegments (name :: rest)), Plain part := by
        rw [segments]
        exact fun part member => (proper part member).plain
      have written := Written.of_plain plain
      rwa [segments] at written

theorem Written.steps (written : Written directory names)
    (proper : ∀ name ∈ names, Path.IsName name) : Path.steps directory = names := by
  rcases written with ⟨rfl, rfl⟩ | ⟨-, -, -, rfl⟩
  · rfl
  · refine List.filter_eq_self.mpr fun name member => ?_
    simp [(proper name member).filled, (proper name member).here]

theorem Written.inside (written : Written directory names)
    (proper : ∀ name ∈ names, Path.IsName name) : Snapshot.Inside directory := by
  rcases written with ⟨rfl, rfl⟩ | ⟨-, -, -, rfl⟩
  · exact ⟨by decide, by decide⟩
  · exact ⟨Path.isAbsolute_of_filled fun none => (proper "" none).filled rfl,
      fun above => (proper ".." above).above rfl⟩

theorem Written.whole (written : Written directory names)
    (whole : ∀ name ∈ names, '\x00' ∉ name.toList) : '\x00' ∉ directory.toList := by
  rcases written with ⟨rfl, rfl⟩ | ⟨-, -, -, rfl⟩
  · decide
  · intro member
    have parts : '\x00' = '/' ∨ ∃ name ∈ Path.segments directory, '\x00' ∈ name.toList :=
      Text.mem_splitAt member
    rcases parts with slash | ⟨name, among, within⟩
    · exact absurd slash (by decide)
    · exact whole name among within

theorem Chosen.isName {segment name : String} (proper : Path.IsName segment)
    (chosen : Chosen segment name) : Path.IsName name := by
  unfold Chosen at chosen
  split at chosen
  · exact chosen.1
  · rwa [chosen]

theorem forall_chosen {segments chosen : List String}
    (proper : ∀ segment ∈ segments, Path.IsName segment)
    (each : List.Forall₂ Chosen segments chosen) : ∀ name ∈ chosen, Path.IsName name := by
  induction each with
  | nil => exact List.forall_mem_nil _
  | cons first _ ih =>
      obtain ⟨named, others⟩ := List.forall_mem_cons.mp proper
      exact List.forall_mem_cons.mpr ⟨first.isName named, ih others⟩

end Written

section Directories

variable {snapshot : Snapshot} {segments names : List String} {directory : String}

/-- What a wildcard stands for in a directory, where no folder has a name that could be taken for
a pattern. -/
theorem expandFrom_listed (orderly : snapshot.Orderly) {segment : String} {rest : List String}
    (wild : Path.isWildcard segment = true) :
    expandFrom snapshot directory (segment :: rest) =
      match snapshot.folders directory (Glob.ofSegment segment).accepts with
      | .error error => .error error
      | .ok folders => gather (fun name => expandFrom snapshot (Path.join directory name) rest)
          (folders.map (·.name)) := by
  rw [expandFrom, if_pos wild]
  cases listed : snapshot.entries directory with
  | error error => simp [Snapshot.folders, listed, Except.map]
  | ok entries =>
      obtain ⟨all, shown⟩ : ∃ all, snapshot.folders directory (fun _ => true) = .ok all :=
        ⟨_, by rw [Snapshot.folders, listed]; rfl⟩
      obtain ⟨some, found⟩ : ∃ some,
          snapshot.folders directory (Glob.ofSegment segment).accepts = .ok some :=
        ⟨_, by rw [Snapshot.folders, listed]; rfl⟩
      obtain ⟨_, same, names⟩ := Snapshot.folders_eq_ok shown
      obtain ⟨_, other, kept⟩ := Snapshot.folders_eq_ok found
      cases listed.symm.trans same
      cases listed.symm.trans other
      have unmarked : ∀ name ∈ all.map (·.name), Path.isWildcard name = false :=
        fun name among => (Snapshot.mem_folders orderly shown among).2
      rw [shown, found]
      dsimp only
      rw [settleSegment_unmarked unmarked wild, names, kept]
      simp [List.filter_map, Function.comp_def, Bool.and_comm]

theorem expandFrom_wild (orderly : snapshot.Orderly) {segment : String} {rest : List String}
    (written : Written directory names) (wild : Path.isWildcard segment = true) :
    expandFrom snapshot directory (segment :: rest) =
      match snapshot.folders directory (Glob.ofSegment segment).accepts with
      | .error error => .error error
      | .ok folders => gather (fun name => expandFrom snapshot
          (if directory = "" then name else directory ++ "/" ++ name) rest)
          (folders.map (·.name)) := by
  rw [expandFrom_listed orderly wild]
  simp only [written.join]

theorem expandFrom_literal {segment : String} {rest : List String}
    (literal : Path.isWildcard segment = false) :
    expandFrom snapshot directory (segment :: rest) =
      expandFrom snapshot (if directory = "" then segment else directory ++ "/" ++ segment)
        rest := by
  rw [expandFrom, if_neg (by simp [literal])]

/-- The directory is inside the tree, under names that a file system can hold. -/
def Within (directory : String) : Prop :=
  ∃ names, Written directory names ∧ ∀ name ∈ names, Path.Holdable name

theorem Within.root : Within "" := ⟨[], .inl ⟨rfl, rfl⟩, List.forall_mem_nil _⟩

theorem Within.of_names (holdable : ∀ name ∈ names, Path.Holdable name) :
    Within (Path.ofSegments names) :=
  ⟨names, .of_names fun name member => (holdable name member).1, holdable⟩

theorem Within.entries (within : Within directory) (snapshot : Snapshot) :
    ∃ entries, snapshot.entries directory = .ok entries := by
  obtain ⟨names, written, holdable⟩ := within
  exact snapshot.entries_inside (written.inside fun name member => (holdable name member).1)
    (written.whole fun name member => (holdable name member).2)

theorem Within.folders (within : Within directory) (snapshot : Snapshot)
    (accepts : String → Bool) :
    ∃ folders, snapshot.folders directory accepts = .ok folders := by
  obtain ⟨entries, listed⟩ := within.entries snapshot
  exact ⟨_, by rw [Snapshot.folders, listed]; rfl⟩

theorem Within.files (within : Within directory) (snapshot : Snapshot)
    (accepts : String → Bool) :
    ∃ files, snapshot.files directory accepts = .ok files := by
  obtain ⟨entries, listed⟩ := within.entries snapshot
  exact ⟨_, by rw [Snapshot.files, listed]; rfl⟩

theorem Within.below {name : String} (within : Within directory) (holdable : Path.Holdable name) :
    Within (if directory = "" then name else directory ++ "/" ++ name) := by
  obtain ⟨names, written, before⟩ := within
  exact ⟨names ++ [name], written.below holdable.1.plain,
    List.forall_mem_append.mpr ⟨before, List.forall_mem_singleton.mpr holdable⟩⟩

/-- Nothing is in the way of following segments from a directory inside the tree. -/
theorem expandFrom_ok (tidy : snapshot.Tidy) (orderly : snapshot.Orderly)
    (within : Within directory) (after : ∀ segment ∈ segments, Path.Holdable segment) :
    ∃ directories, expandFrom snapshot directory segments = .ok directories ∧
      ∀ last ∈ directories, Within last := by
  induction segments generalizing directory with
  | nil => exact ⟨[directory], rfl, List.forall_mem_singleton.mpr within⟩
  | cons segment rest ih =>
      obtain ⟨holdable, later⟩ := List.forall_mem_cons.mp after
      -- a wildcard goes on from each folder that is listed, a name from itself
      cases wild : Path.isWildcard segment with
      | true =>
          obtain ⟨names, written, before⟩ := within
          have within : Within directory := ⟨names, written, before⟩
          obtain ⟨folders, shown⟩ :=
            within.folders snapshot (Glob.ofSegment segment).accepts
          have each : ∀ name ∈ folders.map (·.name), ∃ directories, expandFrom snapshot
              (if directory = "" then name else directory ++ "/" ++ name) rest = .ok directories ∧
                ∀ last ∈ directories, Within last :=
            fun name member => ih (within.below (tidy.folder_holdable shown member)) later
          obtain ⟨directories, gathered⟩ := gather_ok fun name member =>
            (each name member).imp fun _ => And.left
          rw [expandFrom_wild orderly written wild, shown]
          refine ⟨directories, gathered, fun last member => ?_⟩
          obtain ⟨name, among, found, went, held⟩ := mem_gather gathered member
          obtain ⟨others, same, all⟩ := each name among
          cases went.symm.trans same
          exact all last held
      | false =>
          rw [expandFrom_literal wild]
          exact ih (within.below holdable) later

/-- A directory that is spelled and is there is among those that the segments lead to. -/
theorem expandFrom_complete (tidy : snapshot.Tidy) (orderly : snapshot.Orderly)
    {chosen directories : List String} {last : String} (written : Written directory names)
    (before : ∀ name ∈ names, Path.IsName name) (after : ∀ segment ∈ segments, Path.IsName segment)
    (each : List.Forall₂ Chosen segments chosen)
    {folder : Folder} (led : snapshot.reach (names ++ chosen) = .node (.folder folder))
    (shows : snapshot.Shows (Path.ofSegments (names ++ chosen)))
    (ended : Written last (names ++ chosen))
    (expanded : expandFrom snapshot directory segments = .ok directories) :
    last ∈ directories := by
  induction each generalizing directory names directories with
  | nil =>
      cases expanded
      rw [List.append_nil] at ended
      rw [ended.ofSegments, written.ofSegments]
      exact List.mem_singleton_self _
  | @cons segment name rest others first _ ih =>
      obtain ⟨proper, later⟩ := List.forall_mem_cons.mp after
      have named : Path.IsName name := first.isName proper
      have go : ∀ directories, expandFrom snapshot
          (if directory = "" then name else directory ++ "/" ++ name) rest = .ok directories →
            last ∈ directories := by
        intro directories went
        refine ih (written.below named.plain) ?_ later (by simpa using led) (by simpa using shows)
          (by simpa using ended) went
        exact List.forall_mem_append.mpr ⟨before, List.forall_mem_singleton.mpr named⟩
      unfold Chosen at first
      split at first <;> rename_i wild
      · rw [expandFrom_wild orderly written wild] at expanded
        split at expanded
        · cases expanded
        · rename_i folders listed
          refine mem_gather_of expanded ?_ go
          -- the folder of this name is on the way to the last, so it is held and listed
          have steps := written.steps before
          have whole : names ++ name :: others = names ++ [name] ++ others := by simp
          rw [whole] at led shows
          obtain ⟨inside, held⟩ := Snapshot.reach_through led
          rw [← steps] at shows held
          exact (Snapshot.mem_folders_iff tidy listed (shows.start (by simp))).mpr
            ⟨Snapshot.held_of_reach held, first.2⟩
      · rw [expandFrom_literal (by simpa using wild)] at expanded
        rw [← first] at expanded
        exact go _ expanded

/-- No directory is led to twice. -/
theorem expandFrom_nodup (tidy : snapshot.Tidy) (orderly : snapshot.Orderly)
    {directories : List String} (written : Written directory names)
    (after : ∀ segment ∈ segments, Path.IsName segment)
    (expanded : expandFrom snapshot directory segments = .ok directories) :
    directories.Nodup := by
  induction segments generalizing directory names directories with
  | nil =>
      cases expanded
      exact List.pairwise_singleton _ _
  | cons segment rest ih =>
      obtain ⟨proper, later⟩ := List.forall_mem_cons.mp after
      cases wild : Path.isWildcard segment with
      | true =>
          rw [expandFrom_wild orderly written wild] at expanded
          split at expanded
          · cases expanded
          · rename_i folders listed
            have below : ∀ name ∈ folders.map (·.name),
                Written (if directory = "" then name else directory ++ "/" ++ name)
                  (names ++ [name]) :=
              fun name member => written.below (tidy.folder_holdable listed member).1.plain
            refine gather_nodup (Snapshot.folders_nodup tidy listed) expanded ?_ ?_
            · exact fun name member found went => ih (below name member) later went
            · -- one directory is not below two names
              intro first one second two here there result left right held also
              obtain ⟨_, -, under⟩ := mem_expandFrom orderly (fun segment member =>
                (later segment member).plain) (below first one) left held
              obtain ⟨_, -, other⟩ := mem_expandFrom orderly (fun segment member =>
                (later segment member).plain) (below second two) right also
              exact (by simpa using under.unique other : first = second ∧ _).1
      | false =>
          rw [expandFrom_literal wild] at expanded
          exact ih (written.below proper.plain) later expanded

theorem expandFrom_literals (written : Written directory names)
    (after : ∀ segment ∈ segments, Path.IsName segment)
    (literal : ∀ segment ∈ segments, Path.isWildcard segment = false) :
    ∃ last, expandFrom snapshot directory segments = .ok [last] ∧
      Written last (names ++ segments) := by
  induction segments generalizing directory names with
  | nil => exact ⟨directory, rfl, by simpa using written⟩
  | cons segment rest ih =>
      obtain ⟨proper, later⟩ := List.forall_mem_cons.mp after
      obtain ⟨plain, others⟩ := List.forall_mem_cons.mp literal
      obtain ⟨last, went, ended⟩ := ih (written.below proper.plain) later others
      rw [expandFrom_literal plain]
      exact ⟨last, went, by simpa using ended⟩

/-- A path without segments that lead nowhere, or above; the empty one is the root. -/
def Straight (path : String) : Prop := path = "" ∨ ∀ name ∈ Path.segments path, Path.Holdable name

instance (path : String) : Decidable (Straight path) := inferInstanceAs (Decidable (_ ∨ _))

theorem Straight.steps {path : String} (straight : Straight path) :
    (∀ name ∈ Path.steps path, Path.Holdable name) ∧ Written path (Path.steps path) ∧
      (Path.segments path).filter (· != "") = Path.steps path := by
  rcases straight with rfl | holdable
  · exact ⟨by decide, .inl ⟨rfl, by decide⟩, by decide⟩
  · have written := Written.of_plain fun name member => (holdable name member).1.plain
    rw [written.steps fun name member => (holdable name member).1]
    refine ⟨holdable, written, List.filter_eq_self.mpr fun name member => ?_⟩
    simpa using (holdable name member).1.filled

/-- The directories of a pattern are those that its segments lead to from the root, also where it
has no wildcards. -/
theorem expandDirectories_eq {pattern : String} (straight : Straight pattern) :
    expandDirectories snapshot pattern = expandFrom snapshot "" (Path.steps pattern) := by
  obtain ⟨holdable, written, filled⟩ := straight.steps
  unfold expandDirectories
  simp only [filled]
  split
  · rfl
  · rename_i tame
    have literal : ∀ segment ∈ Path.steps pattern, Path.isWildcard segment = false := by
      simpa using tame
    obtain ⟨last, went, ended⟩ : ∃ last,
        expandFrom snapshot "" (Path.steps pattern) = .ok [last] ∧
          Written last ([] ++ Path.steps pattern) :=
      expandFrom_literals (.inl ⟨rfl, rfl⟩) (fun name member => (holdable name member).1) literal
    have same : last = pattern := by
      rw [ended.ofSegments, List.nil_append, ← written.ofSegments]
    rw [went, same]

end Directories

section Files

variable {snapshot : Snapshot} {pattern path : String} {paths : List String}

/-- The path has a directory for each segment of the pattern, and a file that the last accepts. -/
def Spells (pattern path : String) : Prop :=
  ∃ chosen name, Path.segments path = chosen ++ [name] ∧ Path.IsName name ∧
    List.Forall₂ Chosen (Path.steps (Path.splitFile pattern).1) chosen ∧
    (Glob.ofSegment (Path.splitFile pattern).2).accepts name = true

/-- A pattern whose directories lead to a place in the tree can be expanded. -/
theorem expand_ok (tidy : snapshot.Tidy) (orderly : snapshot.Orderly)
    (straight : Straight (Path.splitFile pattern).1) :
    ∃ paths, expand snapshot pattern = .ok paths := by
  obtain ⟨holdable, -, -⟩ := straight.steps
  obtain ⟨directories, reached, within⟩ := expandFrom_ok tidy orderly .root holdable
  obtain ⟨files, gathered⟩ := gather_ok fun directory member =>
    (within directory member).files snapshot
      (Glob.ofSegment (Path.splitFile pattern).2).accepts
  unfold expand
  dsimp only
  rw [expandDirectories_eq straight, reached]
  dsimp only
  rw [gathered]
  exact ⟨_, rfl⟩

theorem expand_eq_ok (straight : Straight (Path.splitFile pattern).1)
    (expanded : expand snapshot pattern = .ok paths) : ∃ directories files,
      expandFrom snapshot "" (Path.steps (Path.splitFile pattern).1) = .ok directories ∧
      gather (fun directory => snapshot.files directory
        (Glob.ofSegment (Path.splitFile pattern).2).accepts) directories = .ok files ∧
      paths = Text.ascending (files.map (·.path)) := by
  unfold expand at expanded
  dsimp only at expanded
  rw [expandDirectories_eq straight] at expanded
  split at expanded
  · cases expanded
  · rename_i directories reached
    obtain ⟨files, gathered, rfl⟩ := Outcome.map_eq_ok.mp expanded
    exact ⟨directories, files, reached, gathered, rfl⟩

/-- What was found lies in a directory that the pattern spells, under a name in its listing. -/
theorem mem_expand_parts (orderly : snapshot.Orderly)
    (straight : Straight (Path.splitFile pattern).1)
    (expanded : expand snapshot pattern = .ok paths) (member : path ∈ paths) :
    ∃ directory chosen name, Written directory chosen ∧ (∀ name ∈ chosen, Path.IsName name) ∧
      List.Forall₂ Chosen (Path.steps (Path.splitFile pattern).1) chosen ∧
      path = Path.join directory name ∧ Path.IsName name ∧ snapshot.Lists directory name ∧
      (Glob.ofSegment (Path.splitFile pattern).2).accepts name = true := by
  obtain ⟨holdable, -, -⟩ := straight.steps
  obtain ⟨directories, directory, name, reached, among, joined, lists, accepted⟩ :=
    mem_expand expanded member
  rw [expandDirectories_eq straight] at reached
  obtain ⟨chosen, each, written⟩ := mem_expandFrom orderly
    (fun segment member => (holdable segment member).1.plain) (.inl ⟨rfl, rfl⟩) reached among
  exact ⟨directory, chosen, name, written,
    forall_chosen (fun segment member => (holdable segment member).1) each, each, joined,
    lists.isName orderly, lists, accepted⟩

theorem Written.steps_join {directory name : String} {names : List String}
    (written : Written directory names) (proper : ∀ name ∈ names, Path.IsName name)
    (named : Path.IsName name) : Path.steps (Path.join directory name) = names ++ [name] := by
  rw [Path.steps_join named, written.steps proper]

theorem Written.join_eq {directory name : String} {names : List String}
    (written : Written directory names) (named : Path.IsName name) :
    Path.join directory name = Path.ofSegments (names ++ [name]) := by
  rw [← written.segments_join named.plain, Path.ofSegments_segments]

/-- A file whose path is listed as it is, is found just if it is there and the pattern spells its
path. -/
theorem mem_expand_iff (tidy : snapshot.Tidy) (orderly : snapshot.Orderly)
    (straight : Straight (Path.splitFile pattern).1)
    (expanded : expand snapshot pattern = .ok paths) (shows : snapshot.Shows path) :
    path ∈ paths ↔ snapshot.HasFile path ∧ Spells pattern path := by
  constructor
  · intro member
    obtain ⟨directory, chosen, name, written, proper, each, rfl, named, ⟨entries, listed, held⟩,
      accepted⟩ := mem_expand_parts orderly straight expanded member
    rw [written.join_eq named] at shows
    have steps := written.steps proper
    rw [← steps] at shows
    have kept := (Snapshot.mem_entries_iff tidy listed shows).mp held
    rw [steps] at kept
    refine ⟨?_, chosen, name, written.segments_join named.plain, named, each, accepted⟩
    unfold Snapshot.HasFile
    rw [written.steps_join proper named]
    exact tidy.reach_of_held kept
  · rintro ⟨⟨content, led⟩, chosen, name, segments, named, each, accepted⟩
    obtain ⟨holdable, -, -⟩ := straight.steps
    have proper := forall_chosen (fun segment member => (holdable segment member).1) each
    have written := Written.of_names proper
    have joined : path = Path.join (Path.ofSegments chosen) name :=
      Path.segments_inj (segments.trans (written.segments_join named.plain).symm)
    subst joined
    rw [written.join_eq named] at shows
    rw [written.steps_join proper named] at led
    obtain ⟨directories, files, reached, gathered, rfl⟩ := expand_eq_ok straight expanded
    obtain ⟨folder, inner⟩ := Snapshot.reach_folder (List.cons_ne_nil _ _) led
    -- the directory is reached by the pattern, and the file is listed in it
    have among : Path.ofSegments chosen ∈ directories := by
      cases chosen with
      | nil =>
          rw [List.forall₂_nil_right_iff.mp each] at reached
          cases reached
          exact List.mem_singleton_self _
      | cons first rest =>
          exact expandFrom_complete tidy orderly (.inl ⟨rfl, rfl⟩) (List.forall_mem_nil _)
            (fun segment member => (holdable segment member).1) each inner
            (shows.start (List.cons_ne_nil _ _)) written reached
    have file : (⟨Path.join (Path.ofSegments chosen) name, name⟩ : FileEntry) ∈ files := by
      refine mem_gather_of gathered among fun found listed => ?_
      obtain ⟨entries, shown, rfl⟩ := Outcome.map_eq_ok.mp listed
      have steps := written.steps proper
      rw [← steps] at shows led
      have kept := (Snapshot.mem_entries_iff tidy shown shows).mpr (Snapshot.held_of_reach led)
      refine List.mem_map.mpr ⟨⟨name, false⟩, List.mem_filter.mpr ⟨kept, ?_⟩, rfl⟩
      simpa using accepted
    rw [Text.ascending, List.mem_mergeSort]
    exact List.mem_map.mpr ⟨_, file, rfl⟩

/-- What was found under a name that no escaped form has is listed as it is. -/
theorem shows_of_mem_expand (tidy : snapshot.Tidy) (orderly : snapshot.Orderly)
    (straight : Straight (Path.splitFile pattern).1)
    (plain : ∀ name, (Glob.ofSegment (Path.splitFile pattern).2).accepts name = true →
      name.toList.getLast? ≠ some '"')
    (expanded : expand snapshot pattern = .ok paths) (member : path ∈ paths) :
    snapshot.Shows path := by
  obtain ⟨directory, chosen, name, written, proper, -, rfl, named, ⟨entries, listed, held⟩,
    accepted⟩ := mem_expand_parts orderly straight expanded member
  obtain ⟨-, -, shuffled⟩ := Snapshot.entries_eq_ok listed
  obtain ⟨actual, kept, same⟩ := List.mem_map.mp (shuffled.mem_iff.mp held)
  have listedAs : snapshot.listedAs (Path.steps directory) actual.name = name :=
    congrArg Entry.name same
  -- an escaped name would end in a quote
  have ends := plain name accepted
  rw [← listedAs] at ends
  obtain ⟨itself, shows⟩ := Snapshot.shows_of_listedAs (tidy.held kept).1 ends
  rw [written.join_eq named, ← listedAs, itself, ← written.steps proper]
  exact shows

/-- No file is found twice. -/
theorem expand_nodup (tidy : snapshot.Tidy) (orderly : snapshot.Orderly)
    (straight : Straight (Path.splitFile pattern).1)
    (expanded : expand snapshot pattern = .ok paths) : paths.Nodup := by
  obtain ⟨holdable, -, -⟩ := straight.steps
  obtain ⟨directories, files, reached, gathered, rfl⟩ := expand_eq_ok straight expanded
  have proper : ∀ name ∈ Path.steps (Path.splitFile pattern).1, Path.IsName name :=
    fun name member => (holdable name member).1
  have plain : ∀ name ∈ Path.steps (Path.splitFile pattern).1, Plain name :=
    fun name member => (proper name member).plain
  have distinct := expandFrom_nodup tidy orderly (.inl ⟨rfl, rfl⟩) proper reached
  -- a path ends in the name of its file, so files are distinct just if their paths are
  have ends : ∀ file ∈ files, ∃ directory ∈ directories, file.path = Path.join directory file.name ∧
      Path.IsName file.name := by
    intro file member
    obtain ⟨directory, among, found, listed, held⟩ := mem_gather gathered member
    obtain ⟨lists, joined, -⟩ := Snapshot.mem_files listed held
    exact ⟨directory, among, joined, lists.isName orderly⟩
  have entries : files.Nodup := by
    refine gather_nodup distinct gathered ?_ ?_
    · intro directory _ found listed
      exact (List.pairwise_map.mp (Snapshot.files_nodup tidy listed)).imp fun apart same =>
        apart (congrArg FileEntry.name same)
    · intro first one second two here there file listed other left right
      obtain ⟨chosen, -, written⟩ := mem_expandFrom orderly plain (.inl ⟨rfl, rfl⟩) reached one
      obtain ⟨others, -, also⟩ := mem_expandFrom orderly plain (.inl ⟨rfl, rfl⟩) reached two
      obtain ⟨lists, joined, -⟩ := Snapshot.mem_files listed left
      obtain ⟨-, same, -⟩ := Snapshot.mem_files other right
      have named := (lists.isName orderly).plain
      have segments := congrArg Path.segments (joined.symm.trans same)
      rw [written.segments_join named, also.segments_join named] at segments
      rw [written.ofSegments, also.ofSegments, List.append_cancel_right segments]
  refine (List.mergeSort_perm _ _).nodup_iff.mpr (List.pairwise_map.mpr ?_)
  refine entries.imp_of_mem fun {first second} one two apart same => apart ?_
  obtain ⟨_, -, joined, named⟩ := ends first one
  obtain ⟨_, -, other, called⟩ := ends second two
  have names : first.name = second.name := by
    rw [← Path.fileName_join named, ← joined, same, other, Path.fileName_join called]
  obtain ⟨path, name⟩ := first
  obtain ⟨_, _⟩ := second
  obtain rfl : path = _ := same
  obtain rfl : name = _ := names
  rfl

section Segments

variable {segments names : List String} {file name : String}

theorem splitFile_ofSegments (free : '/' ∉ file.toList) :
    Path.splitFile (Path.ofSegments (segments ++ [file])) = (Path.ofSegments segments, file) := by
  rw [Source.Revision.ofSegments_append]
  split
  · rename_i none
    rw [none, Path.splitFile_of_free free]
    rfl
  · exact Path.splitFile_append _ free

/-- A pattern that is put together from its segments. -/
theorem straight_ofSegments (holdable : ∀ segment ∈ segments, Path.Holdable segment)
    (free : '/' ∉ file.toList) :
    Straight (Path.splitFile (Path.ofSegments (segments ++ [file]))).1 := by
  have written := Written.of_names fun name member => (holdable name member).1
  rw [splitFile_ofSegments free]
  rcases written with ⟨root, -⟩ | ⟨-, -, -, same⟩
  · exact .inl root
  · exact .inr (by rwa [same])

theorem spells_ofSegments (proper : ∀ segment ∈ segments, Path.IsName segment)
    (free : '/' ∉ file.toList) (named : ∀ name ∈ names, Path.IsName name)
    (last : Path.IsName name) :
    Spells (Path.ofSegments (segments ++ [file])) (Path.ofSegments (names ++ [name])) ↔
      List.Forall₂ Chosen segments names ∧ (Glob.ofSegment file).accepts name = true := by
  have whole : Path.segments (Path.ofSegments (names ++ [name])) = names ++ [name] :=
    Text.splitAt_intercalate (by simp)
      (List.forall_mem_append.mpr ⟨fun name member => (named name member).free,
        List.forall_mem_singleton.mpr last.free⟩)
  unfold Spells
  rw [splitFile_ofSegments free, (Written.of_names proper).steps proper, whole]
  constructor
  · rintro ⟨chosen, other, parts, -, each, accepted⟩
    obtain ⟨rfl, same⟩ := List.append_inj' parts rfl
    obtain rfl : name = other := by simpa using same
    exact ⟨each, accepted⟩
  · rintro ⟨each, accepted⟩
    exact ⟨names, name, rfl, last, each, accepted⟩

end Segments

end Files

end Plan

end Rollout
