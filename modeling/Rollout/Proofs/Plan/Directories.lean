import Rollout.Proofs.Plan.Matching

/-!
How directory patterns are expanded one wildcard at a time. Each folder that can stand for the first
wildcard leaves a pattern with fewer of them, so the recursion comes to an end; and what it comes to
is the expansion of the pattern.
-/

namespace Rollout

namespace Path

/-- The number of segments of a pattern that are wildcards. -/
def wildcards (pattern : String) : Nat := (segments pattern).countP isWildcard

theorem wildcards_filled (pattern : String) :
    ((segments pattern).filter (· != "")).countP isWildcard = wildcards pattern := by
  rw [List.countP_filter]
  refine List.countP_congr fun segment _ => ?_
  by_cases empty : segment = ""
  · subst empty
    decide
  · simp [empty]

/-- A segment that leads somewhere, or stays where it is. -/
structure Solid (segment : String) : Prop where
  filled : segment ≠ ""
  free : '/' ∉ segment.toList

variable {names before : List String} {name : String}

theorem IsName.solid (proper : IsName name) : Solid name := ⟨proper.filled, proper.free⟩

theorem segments_of_solid (solid : ∀ name ∈ names, Solid name) (filled : names ≠ []) :
    segments (ofSegments names) = names :=
  Text.splitAt_intercalate filled fun name member => (solid name member).free

theorem ofSegments_eq_empty (solid : ∀ name ∈ names, Solid name) :
    ofSegments names = "" ↔ names = [] := by
  constructor
  · intro none
    by_contra filled
    have segments := segments_of_solid solid filled
    rw [none] at segments
    have empty : "" ∈ names := segments ▸ List.mem_singleton_self ""
    exact (solid "" empty).filled rfl
  · rintro rfl
    rfl

/-- A path below a directory. The empty directory and a single dot are the root. -/
theorem join_ofSegments (solid : ∀ name ∈ before, Solid name) (below : String) :
    join (ofSegments before) below =
      if before = [] ∨ before = ["."] then below else ofSegments before ++ "/" ++ below := by
  by_cases root : before = []
  · subst root
    rfl
  · by_cases dot : before = ["."]
    · subst dot
      rfl
    · have segments := segments_of_solid solid root
      have filled := mt (ofSegments_eq_empty solid).mp root
      have other : ofSegments before ≠ "." := by
        intro same
        rw [same] at segments
        exact dot segments.symm
      have ends : endsInSlash (ofSegments before) = false := by
        obtain ⟨start, last, rfl⟩ := (List.eq_nil_or_concat before).resolve_left root
        obtain ⟨full, free⟩ := solid last (by simp)
        have whole : ∃ stem, ofSegments (start ++ [last]) = stem ++ last := by
          rw [Source.Revision.ofSegments_append]
          split
          · exact ⟨"", String.empty_append.symm⟩
          · exact ⟨_, rfl⟩
        obtain ⟨stem, whole⟩ := whole
        rw [List.concat_eq_append, whole]
        exact endsInSlash_append stem full free
      unfold join
      dsimp only
      rw [dropSlashes_of_ends ends, if_neg (not_or.mpr ⟨filled, other⟩),
        if_neg (not_or.mpr ⟨root, dot⟩)]

end Path

namespace Plan

open Rollout.Path (Solid)

/-- What is left of a pattern when a directory takes the place of its first wildcard and of what
stands before it. -/
def narrowed (directory : String) (after : List String) : String :=
  if after = [] then directory else Path.join directory (Path.ofSegments after)

/-- The first wildcard of a pattern, with what stands before and after it. -/
structure FirstWild (pattern : String) (before : List String) (wild : String)
    (after : List String) : Prop where
  segments : (Path.segments pattern).filter (· != "") = before ++ wild :: after
  literal : ∀ segment ∈ before, Path.isWildcard segment = false
  marked : Path.isWildcard wild = true

variable {snapshot : Snapshot} {pattern wild name : String} {before after names : List String}

theorem solid_segments (pattern : String) :
    ∀ segment ∈ (Path.segments pattern).filter (· != ""), Solid segment := by
  intro segment member
  obtain ⟨piece, filled⟩ := List.mem_filter.mp member
  exact ⟨by simpa using filled, Text.not_mem_splitAt piece⟩

theorem firstWild_or (pattern : String) : Path.wildcards pattern = 0 ∨
    ∃ before wild after, FirstWild pattern before wild after := by
  rw [← Path.wildcards_filled]
  cases found : ((Path.segments pattern).filter (· != "")).find? Path.isWildcard with
  | none =>
      left
      rw [List.countP_eq_zero]
      exact List.find?_eq_none.mp found
  | some wild =>
      right
      obtain ⟨marked, before, after, segments, literal⟩ := List.find?_eq_some_iff_append.mp found
      exact ⟨before, wild, after, segments, by simpa using literal, marked⟩

theorem FirstWild.solid (first : FirstWild pattern before wild after) :
    (∀ segment ∈ before, Solid segment) ∧ ∀ segment ∈ after, Solid segment := by
  have all := solid_segments pattern
  rw [first.segments] at all
  obtain ⟨early, late⟩ := List.forall_mem_append.mp all
  exact ⟨early, (List.forall_mem_cons.mp late).2⟩

/-- The names that lead to a name below others. -/
def ledBy (before : List String) (name : String) : List String :=
  (if before = ["."] then [] else before) ++ [name]

theorem ledBy_solid (solid : ∀ segment ∈ before, Solid segment) (proper : Path.IsName name) :
    ∀ segment ∈ ledBy before name, Solid segment := by
  refine List.forall_mem_append.mpr ⟨?_, List.forall_mem_singleton.mpr proper.solid⟩
  split
  · exact List.forall_mem_nil _
  · exact solid

theorem ledBy_literal (literal : ∀ segment ∈ before, Path.isWildcard segment = false)
    (unmarked : Path.isWildcard name = false) :
    ∀ segment ∈ ledBy before name, Path.isWildcard segment = false := by
  refine List.forall_mem_append.mpr ⟨?_, List.forall_mem_singleton.mpr unmarked⟩
  split
  · exact List.forall_mem_nil _
  · exact literal

theorem join_ledBy (solid : ∀ segment ∈ before, Solid segment) :
    Path.join (Path.ofSegments before) name = Path.ofSegments (ledBy before name) := by
  rw [Path.join_ofSegments solid, ledBy, Source.Revision.ofSegments_append]
  by_cases root : before = []
  · simp [root]
  · by_cases dot : before = ["."] <;> simp [root, dot]

theorem narrowed_ledBy (solid : ∀ segment ∈ before, Solid segment) (proper : Path.IsName name)
    (after : List String) : narrowed (Path.join (Path.ofSegments before) name) after =
      Path.ofSegments (ledBy before name ++ after) := by
  rw [join_ledBy solid, narrowed]
  by_cases last : after = []
  · rw [if_pos last, last, List.append_nil]
  · have filled : ledBy before name ≠ [] := by simp [ledBy]
    have other : ledBy before name ≠ ["."] := by
      intro same
      have final := congrArg List.getLast? same
      rw [ledBy, List.getLast?_append] at final
      exact proper.here (by simpa using final)
    rw [if_neg last, Path.join_ofSegments (ledBy_solid solid proper),
      if_neg (not_or.mpr ⟨filled, other⟩), Path.ofSegments, Path.ofSegments, Path.ofSegments,
      String.intercalate_append_of_ne_nil filled last]

/-- Segments that are no wildcards are followed as they are. -/
theorem expandFrom_prefix (solid : ∀ segment ∈ names ++ before, Solid segment)
    (literal : ∀ segment ∈ before, Path.isWildcard segment = false) (rest : List String) :
    expandFrom snapshot (Path.ofSegments names) (before ++ rest) =
      expandFrom snapshot (Path.ofSegments (names ++ before)) rest := by
  induction before generalizing names with
  | nil => rw [List.append_nil, List.nil_append]
  | cons segment more ih =>
      obtain ⟨here, later⟩ := List.forall_mem_cons.mp literal
      have start : ∀ name ∈ names, Solid name := (List.forall_mem_append.mp solid).1
      have next : (if Path.ofSegments names = "" then segment
          else Path.ofSegments names ++ "/" ++ segment) = Path.ofSegments (names ++ [segment]) := by
        rw [Source.Revision.ofSegments_append]
        simp only [Path.ofSegments_eq_empty start]
      rw [List.cons_append, expandFrom_literal here, next,
        ih (by simpa using solid) later, List.append_assoc, List.singleton_append]

/-- A pattern stands for the directories that its segments lead to, also if it has no wildcards. -/
theorem expandDirectories_ofSegments (solid : ∀ segment ∈ names, Solid segment) :
    expandDirectories snapshot (Path.ofSegments names) = expandFrom snapshot "" names := by
  by_cases root : names = []
  · subst root
    rfl
  · have kept : (Path.segments (Path.ofSegments names)).filter (· != "") = names := by
      rw [Path.segments_of_solid solid root]
      exact List.filter_eq_self.mpr fun segment member => by
        simpa using (solid segment member).filled
    unfold expandDirectories
    simp only [kept]
    split
    · rfl
    · rename_i tame
      have literal : ∀ segment ∈ names, Path.isWildcard segment = false := by simpa using tame
      have followed : expandFrom snapshot (Path.ofSegments []) (names ++ []) =
          expandFrom snapshot (Path.ofSegments ([] ++ names)) [] :=
        expandFrom_prefix (by simpa using solid) literal []
      rw [List.append_nil, List.nil_append] at followed
      exact followed.symm

theorem gather_congr {Value Result Fault : Type} {first second : Value → Except Fault (List Result)}
    {values : List Value} (same : ∀ value ∈ values, first value = second value) :
    gather first values = gather second values := by
  induction values with
  | nil => rfl
  | cons value rest ih =>
      obtain ⟨here, later⟩ := List.forall_mem_cons.mp same
      rw [gather, gather, here, ih later]

/-- A pattern without wildcards stands for itself. -/
theorem expandDirectories_tame (none : Path.wildcards pattern = 0) :
    expandDirectories snapshot pattern = .ok [pattern] := by
  rw [← Path.wildcards_filled, List.countP_eq_zero] at none
  have tame : ((Path.segments pattern).filter (· != "")).any Path.isWildcard = false :=
    List.any_eq_false.mpr none
  unfold expandDirectories
  simp [tame]

/-- One with wildcards stands for what is left of it at each folder that can take the place of the
first wildcard. -/
theorem expandDirectories_narrows (orderly : snapshot.Orderly)
    (first : FirstWild pattern before wild after) :
    expandDirectories snapshot pattern =
      match snapshot.folders (Path.ofSegments before) (Glob.ofSegment wild).accepts with
      | .error error => .error error
      | .ok folders => gather (fun name => expandDirectories snapshot
          (narrowed (Path.join (Path.ofSegments before) name) after)) (folders.map (·.name)) := by
  obtain ⟨early, late⟩ := first.solid
  have some : ((Path.segments pattern).filter (· != "")).any Path.isWildcard = true := by
    rw [first.segments]
    simp [first.marked]
  have followed : expandFrom snapshot (Path.ofSegments []) (before ++ wild :: after) =
      expandFrom snapshot (Path.ofSegments ([] ++ before)) (wild :: after) :=
    expandFrom_prefix (by simpa using early) first.literal (wild :: after)
  have whole : expandDirectories snapshot pattern =
      expandFrom snapshot (Path.ofSegments before) (wild :: after) := by
    unfold expandDirectories
    simp only [some, if_true]
    rw [first.segments]
    exact followed
  rw [whole, expandFrom_listed orderly first.marked]
  cases listed : snapshot.folders (Path.ofSegments before) (Glob.ofSegment wild).accepts with
  | error error => rfl
  | ok folders =>
      refine gather_congr fun name member => ?_
      obtain ⟨proper, unmarked⟩ := Snapshot.mem_folders orderly listed member
      have solid := ledBy_solid early proper
      have all : ∀ segment ∈ ledBy before name ++ after, Solid segment :=
        List.forall_mem_append.mpr ⟨solid, late⟩
      have led : expandFrom snapshot (Path.ofSegments []) (ledBy before name ++ after) =
          expandFrom snapshot (Path.ofSegments ([] ++ ledBy before name)) after :=
        expandFrom_prefix (by simpa using solid) (ledBy_literal first.literal unmarked) after
      rw [narrowed_ledBy early proper, expandDirectories_ofSegments all, join_ledBy early]
      exact led.symm

/-- Whatever folder takes the place of the first wildcard, fewer wildcards are left. -/
theorem wildcards_narrowed (orderly : snapshot.Orderly)
    (first : FirstWild pattern before wild after) {accepts : String → Bool}
    {folders : List FileEntry}
    (listed : snapshot.folders (Path.ofSegments before) accepts = .ok folders)
    (member : name ∈ folders.map (·.name)) :
    Path.wildcards (narrowed (Path.join (Path.ofSegments before) name) after) <
      Path.wildcards pattern := by
  obtain ⟨proper, unmarked⟩ := Snapshot.mem_folders orderly listed member
  obtain ⟨early, late⟩ := first.solid
  have all : ∀ segment ∈ ledBy before name ++ after, Solid segment :=
    List.forall_mem_append.mpr ⟨ledBy_solid early proper, late⟩
  have none : ∀ {list : List String}, (∀ segment ∈ list, Path.isWildcard segment = false) →
      list.countP Path.isWildcard = 0 := by
    intro list literal
    rw [List.countP_eq_zero]
    simpa using literal
  have rest : Path.wildcards (narrowed (Path.join (Path.ofSegments before) name) after) =
      after.countP Path.isWildcard := by
    rw [narrowed_ledBy early proper, Path.wildcards, Path.segments_of_solid all (by simp [ledBy]),
      List.countP_append, none (ledBy_literal first.literal unmarked), Nat.zero_add]
  have whole : Path.wildcards pattern = after.countP Path.isWildcard + 1 := by
    rw [← Path.wildcards_filled, first.segments, List.countP_append, none first.literal,
      List.countP_cons_of_pos first.marked, Nat.zero_add]
  omega

/-- The expansion of a pattern as a recursion that comes to an end: it goes on at each folder that
can take the place of the first wildcard, always with fewer wildcards. -/
inductive Expands (snapshot : Snapshot) : String → Except SourceError (List String) → Prop where
  | tame {pattern : String} (none : Path.wildcards pattern = 0) :
      Expands snapshot pattern (.ok [pattern])
  | refused {pattern wild : String} {before after : List String}
      (first : FirstWild pattern before wild after) {error : SourceError}
      (listed : snapshot.folders (Path.ofSegments before) (Glob.ofSegment wild).accepts =
        .error error) : Expands snapshot pattern (.error error)
  | folders {pattern wild : String} {before after : List String}
      (first : FirstWild pattern before wild after) {folders : List FileEntry}
      (listed : snapshot.folders (Path.ofSegments before) (Glob.ofSegment wild).accepts =
        .ok folders)
      {results : String → Except SourceError (List String)}
      (fewer : ∀ name ∈ folders.map (·.name),
        Path.wildcards (narrowed (Path.join (Path.ofSegments before) name) after) <
          Path.wildcards pattern)
      (each : ∀ name ∈ folders.map (·.name), Expands snapshot
        (narrowed (Path.join (Path.ofSegments before) name) after) (results name)) :
      Expands snapshot pattern (gather results (folders.map (·.name)))

/-- The recursion comes to what the segments of the pattern lead to. -/
theorem expandDirectories_expands (orderly : snapshot.Orderly) (pattern : String) :
    Expands snapshot pattern (expandDirectories snapshot pattern) := by
  -- by induction on the number of wildcards
  generalize count : Path.wildcards pattern = most
  induction most using Nat.strong_induction_on generalizing pattern with
  | _ most ih =>
      rcases firstWild_or pattern with none | ⟨before, wild, after, first⟩
      · rw [expandDirectories_tame none]
        exact .tame none
      · rw [expandDirectories_narrows orderly first]
        cases listed : snapshot.folders (Path.ofSegments before)
            (Glob.ofSegment wild).accepts with
        | error error => exact .refused first listed
        | ok folders =>
            have fewer (name : String) (member : name ∈ folders.map (·.name)) :
                Path.wildcards (narrowed (Path.join (Path.ofSegments before) name) after) <
                  Path.wildcards pattern :=
              wildcards_narrowed orderly first listed member
            exact .folders first listed fewer fun name member =>
              ih _ (count ▸ fewer name member) _ rfl

end Plan

end Rollout
