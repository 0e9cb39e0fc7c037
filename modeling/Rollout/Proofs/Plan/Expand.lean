import Mathlib.Data.List.Forall2
import Rollout.Plan.Expand
import Rollout.Proofs.Glob
import Rollout.Proofs.Tree

/-!
What the expansion of a pattern comes to: files in the listings of directories whose paths are
those of the pattern, segment by segment.
-/

namespace Rollout.Plan

theorem mem_gather {Value Result Fault : Type} {find : Value → Except Fault (List Result)}
    {values : List Value} {results : List Result} {result : Result}
    (gathered : gather find values = .ok results) (member : result ∈ results) :
    ∃ value ∈ values, ∃ found, find value = .ok found ∧ result ∈ found := by
  induction values generalizing results with
  | nil =>
      cases gathered
      cases member
  | cons value rest ih =>
      unfold gather at gathered
      split at gathered
      · cases gathered
      · rename_i found first
        obtain ⟨others, later, rfl⟩ := Outcome.map_eq_ok.mp gathered
        rcases List.mem_append.mp member with here | there
        · exact ⟨value, List.mem_cons_self, found, first, here⟩
        · obtain ⟨other, within, held⟩ := ih later there
          exact ⟨other, List.mem_cons_of_mem _ within, held⟩

/-- Names that hold no wildcards are matched once. -/
theorem mem_settleSegment {names : List String} {depth : Nat} {segment name : String}
    (unmarked : ∀ name ∈ names, Path.isWildcard name = false)
    (wild : Path.isWildcard segment = true) (member : name ∈ settleSegment names depth segment) :
    name ∈ names ∧ (Glob.ofSegment segment).accepts name = true := by
  unfold settleSegment at member
  rw [if_pos wild] at member
  split at member
  · cases member
  · obtain ⟨first, kept, settled⟩ := List.mem_flatMap.mp member
    obtain ⟨within, accepted⟩ := List.mem_filter.mp kept
    unfold settleSegment at settled
    rw [if_neg (by simp [unmarked first within])] at settled
    obtain rfl := List.mem_singleton.mp settled
    exact ⟨within, accepted⟩

/-- The names a segment of a directory pattern can come to. -/
def Chosen (segment name : String) : Prop :=
  if Path.isWildcard segment then Path.IsName name ∧ (Glob.ofSegment segment).accepts name = true
  else name = segment

/-- The directory lies below the root and is written as these names. -/
def Written (directory : String) (names : List String) : Prop :=
  directory = "" ∧ names = [] ∨
    directory ≠ "" ∧ directory ≠ "." ∧ Path.endsInSlash directory = false ∧
      Path.segments directory = names

/-- A directory pattern without steps that lead nowhere. -/
def Plain (segment : String) : Prop := segment ≠ "" ∧ segment ≠ "." ∧ '/' ∉ segment.toList

instance (segment : String) : Decidable (Plain segment) :=
  inferInstanceAs (Decidable (_ ∧ _))

theorem Written.below {directory segment : String} {names : List String}
    (written : Written directory names) (plain : Plain segment) :
    Written (if directory = "" then segment else directory ++ "/" ++ segment)
      (names ++ [segment]) := by
  obtain ⟨filled, here, free⟩ := plain
  right
  rcases written with ⟨rfl, rfl⟩ | ⟨inside, -, -, rfl⟩
  · have ends : Path.endsInSlash segment = false := by
      simpa using Path.endsInSlash_append "" filled free
    simpa using ⟨filled, here, ends, Path.segments_of_free free⟩
  · rw [if_neg inside]
    refine ⟨by simp, ?_, Path.endsInSlash_append _ filled free, ?_⟩
    · intro same
      have slash := congrArg (fun path => '/' ∈ path.toList) same
      simp at slash
    · rw [Path.segments_append, Path.segments_of_free free]

theorem Written.join {directory name : String} {names : List String}
    (written : Written directory names) :
    Path.join directory name =
      if directory = "" then name else directory ++ "/" ++ name := by
  unfold Path.join
  dsimp only
  rcases written with ⟨rfl, -⟩ | ⟨inside, here, ends, -⟩
  · rfl
  · rw [Path.dropSlashes_of_ends ends]
    simp [inside, here]

theorem Chosen.plain {segment name : String} (plain : Plain segment)
    (chosen : Chosen segment name) : Plain name := by
  unfold Chosen at chosen
  split at chosen
  · exact ⟨chosen.1.filled, chosen.1.here, chosen.1.free⟩
  · rwa [chosen]

variable {snapshot : Snapshot}

/-- Each directory that remaining segments lead to has a name for each of them. -/
theorem mem_expandFrom {segments : List String} {directory last : String} {names : List String}
    {directories : List String} (orderly : snapshot.Orderly)
    (plain : ∀ segment ∈ segments, Plain segment) (written : Written directory names)
    (expanded : expandFrom snapshot directory segments = .ok directories)
    (member : last ∈ directories) :
    ∃ chosen, List.Forall₂ Chosen segments chosen ∧ Written last (names ++ chosen) := by
  induction segments generalizing directory names directories with
  | nil =>
      cases expanded
      obtain rfl := List.mem_singleton.mp member
      exact ⟨[], .nil, by simpa using written⟩
  | cons segment rest ih =>
      obtain ⟨first, later⟩ := List.forall_mem_cons.mp plain
      -- whether the name was written or found, the rest goes on below it
      have step : ∀ {name} {further : List String}, Chosen segment name →
          expandFrom snapshot (if directory = "" then name else directory ++ "/" ++ name) rest =
            .ok further → last ∈ further →
          ∃ chosen, List.Forall₂ Chosen (segment :: rest) chosen ∧
            Written last (names ++ chosen) := by
        intro name further chosen went within
        obtain ⟨others, all, ended⟩ := ih later (written.below (chosen.plain first)) went within
        exact ⟨name :: others, .cons chosen all, by simpa using ended⟩
      unfold expandFrom at expanded
      split at expanded
      · rename_i wild
        split at expanded
        · cases expanded
        · rename_i folders listed
          obtain ⟨name, settled, further, went, within⟩ := mem_gather expanded member
          have unmarked : ∀ name ∈ folders.map (·.name), Path.isWildcard name = false :=
            fun name among => (Snapshot.mem_folders orderly listed among).2
          obtain ⟨among, accepted⟩ := mem_settleSegment unmarked wild settled
          have chosen : Chosen segment name := by
            unfold Chosen
            rw [if_pos wild]
            exact ⟨(Snapshot.mem_folders orderly listed among).1, accepted⟩
          rw [written.join] at went
          exact step chosen went within
      · rename_i tame
        have chosen : Chosen segment segment := by
          unfold Chosen
          rw [if_neg tame]
        exact step chosen expanded member

theorem Written.of_plain {path : String} (plain : ∀ segment ∈ Path.segments path, Plain segment) :
    Written path (Path.segments path) := by
  right
  refine ⟨?_, ?_, ?_, rfl⟩
  · rintro rfl
    exact (plain "" (by decide)).1 rfl
  · rintro rfl
    exact (plain "." (by decide)).2.1 rfl
  · cases ends : Path.endsInSlash path with
    | false => rfl
    | true =>
        -- behind a slash at the end stands a segment that is empty
        have last : path.toList.getLast? = some '/' := by simpa [Path.endsInSlash] using ends
        obtain ⟨before, whole⟩ := List.getLast?_eq_some_iff.mp last
        have path_eq : path = String.ofList before ++ "/" ++ "" := by
          apply String.ext
          simp [whole]
        have none : "" ∈ Path.segments path := by
          rw [path_eq, Path.segments_append]
          exact List.mem_append_right _ (by decide)
        exact absurd rfl (plain "" none).1

theorem mem_expandDirectories {pattern directory : String} {directories : List String}
    (orderly : snapshot.Orderly) (plain : ∀ segment ∈ Path.segments pattern, Plain segment)
    (expanded : expandDirectories snapshot pattern = .ok directories)
    (member : directory ∈ directories) :
    ∃ chosen, List.Forall₂ Chosen (Path.segments pattern) chosen ∧ Written directory chosen := by
  have all : (Path.segments pattern).filter (· != "") = Path.segments pattern := by
    rw [List.filter_eq_self]
    intro segment among
    simpa using (plain segment among).1
  unfold expandDirectories at expanded
  simp only [all] at expanded
  split at expanded
  · exact mem_expandFrom orderly plain (.inl ⟨rfl, rfl⟩) expanded member
  · rename_i tame
    cases expanded
    obtain rfl := List.mem_singleton.mp member
    refine ⟨_, ?_, .of_plain plain⟩
    rw [List.forall₂_same]
    intro segment among
    have literal : Path.isWildcard segment = false := by
      simp only [List.any_eq_true, not_exists, not_and, Bool.not_eq_true] at tame
      exact tame segment among
    simp [Chosen, literal]

theorem Written.segments_join {directory name : String} {names : List String}
    (written : Written directory names) (plain : Plain name) :
    Path.segments (Path.join directory name) = names ++ [name] := by
  rw [written.join]
  rcases written.below plain with ⟨-, none⟩ | ⟨-, -, -, same⟩
  · simp at none
  · exact same

/-- Each file that matches a pattern is listed in a directory that matches, under a name that the
last segment accepts. -/
theorem mem_expand {pattern path : String} {paths : List String}
    (expanded : expand snapshot pattern = .ok paths) (member : path ∈ paths) :
    ∃ directories directory name,
      expandDirectories snapshot (Path.splitFile pattern).1 = .ok directories ∧
      directory ∈ directories ∧ path = Path.join directory name ∧
      snapshot.Lists directory name ∧
      (Glob.ofSegment (Path.splitFile pattern).2).accepts name = true := by
  unfold expand at expanded
  dsimp only at expanded
  split at expanded
  · cases expanded
  · rename_i directories reached
    obtain ⟨files, gathered, rfl⟩ := Outcome.map_eq_ok.mp expanded
    obtain ⟨file, among, rfl⟩ := List.mem_map.mp (List.mem_mergeSort.mp member)
    obtain ⟨directory, within, found, listed, held⟩ := mem_gather gathered among
    obtain ⟨lists, joined, accepted⟩ := Snapshot.mem_files listed held
    exact ⟨directories, directory, file.name, reached, within, joined, lists, accepted⟩

end Rollout.Plan
