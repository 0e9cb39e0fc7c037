import Rollout.Path
import Rollout.Proofs.Name

/-!
Paths, taken apart and put together. However a path is spelled, the directory it is in and the
name after its last slash lead to the same place as the whole.
-/

namespace Rollout.Path

/-- A name that a directory can hold. -/
structure IsName (name : String) : Prop where
  filled : name ≠ ""
  here : name ≠ "."
  above : name ≠ ".."
  free : '/' ∉ name.toList

instance (name : String) : Decidable (IsName name) :=
  decidable_of_iff (name ≠ "" ∧ name ≠ "." ∧ name ≠ ".." ∧ '/' ∉ name.toList)
    ⟨fun ⟨filled, here, above, free⟩ => ⟨filled, here, above, free⟩,
      fun ⟨filled, here, above, free⟩ => ⟨filled, here, above, free⟩⟩

theorem segments_append (before after : String) :
    segments (before ++ "/" ++ after) = segments before ++ segments after :=
  Text.splitAt_append before after

theorem segments_of_free {path : String} (free : '/' ∉ path.toList) : segments path = [path] :=
  Text.splitAt_of_free free

theorem ofSegments_segments (path : String) : ofSegments (segments path) = path :=
  Text.intercalate_splitAt path

theorem segments_inj {first second : String} (same : segments first = segments second) :
    first = second := by
  rw [← ofSegments_segments first, same, ofSegments_segments]

/-- Before a slash at the start stands a segment that is empty. -/
theorem isAbsolute_of_filled {path : String} (filled : "" ∉ segments path) :
    isAbsolute path = false := by
  rw [Bool.eq_false_iff]
  intro absolute
  have first : path.toList.head? = some '/' := by simpa [isAbsolute] using absolute
  obtain ⟨rest, letters⟩ := List.head?_eq_some_iff.mp first
  have whole : path = "" ++ "/" ++ String.ofList rest := by
    apply String.ext
    simp [letters]
  refine filled ?_
  rw [whole, segments_append]
  exact List.mem_append_left _ (by decide)

theorem steps_append (before after : String) :
    steps (before ++ "/" ++ after) = steps before ++ steps after := by
  simp only [steps, segments_append, List.filter_append]

theorem IsName.segments {name : String} (proper : IsName name) : segments name = [name] :=
  segments_of_free proper.free

theorem IsName.steps {name : String} (proper : IsName name) : steps name = [name] := by
  simp [Path.steps, proper.segments, proper.filled, proper.here]

theorem steps_empty : steps "" = [] := by decide

/-- What a path holds besides slashes and dots, its steps hold. -/
theorem mem_iff_steps {path : String} {c : Char} (slash : c ≠ '/') (dot : c ≠ '.') :
    c ∈ path.toList ↔ ∃ step ∈ steps path, c ∈ step.toList := by
  constructor
  · intro member
    obtain ⟨segment, among, within⟩ := (Text.mem_splitAt member).resolve_left slash
    refine ⟨segment, List.mem_filter.mpr ⟨among, ?_⟩, within⟩
    simp only [Bool.and_eq_true, bne_iff_ne, ne_eq]
    constructor
    · rintro rfl
      cases within
    · rintro rfl
      exact dot (by simpa using within)
  · rintro ⟨step, member, within⟩
    obtain ⟨letters, among, rfl⟩ := List.mem_map.mp (List.mem_filter.mp member).1
    exact Text.mem_of_mem_pieces among (by simpa using within)

theorem splitFile_cases (path : String) :
    '/' ∉ (splitFile path).2.toList ∧
      (path = (splitFile path).1 ++ "/" ++ (splitFile path).2 ∨
        splitFile path = ("", path)) := by
  unfold splitFile
  split <;> rename_i cut
  · rename_i directory file
    obtain ⟨text, free⟩ := Text.cutLast_eq_some cut
    refine ⟨by simpa using free, .inl ?_⟩
    apply String.ext
    simp [text]
  · exact ⟨Text.cutLast_eq_none cut, .inr rfl⟩

theorem splitFile_append {name : String} (directory : String) (free : '/' ∉ name.toList) :
    splitFile (directory ++ "/" ++ name) = (directory, name) := by
  have letters : (directory ++ "/" ++ name).toList = directory.toList ++ '/' :: name.toList := by
    simp
  simp [splitFile, letters, Text.cutLast_append directory.toList free]

theorem splitFile_of_free {name : String} (free : '/' ∉ name.toList) :
    splitFile name = ("", name) := by
  simp [splitFile, Text.cutLast_of_free free]

/-- A path leads where its directory leads, and then to its last name. -/
theorem steps_splitFile {path : String} (proper : IsName (splitFile path).2) :
    steps path = steps (splitFile path).1 ++ [(splitFile path).2] := by
  rcases (splitFile_cases path).2 with whole | alone
  · have split := congrArg steps whole
    rwa [steps_append, proper.steps] at split
  · rw [alone] at proper ⊢
    simpa [steps_empty] using proper.steps

def slashes (count : Nat) : String := String.ofList (List.replicate count '/')

theorem slashes_succ (path : String) (count : Nat) :
    path ++ slashes (count + 1) = path ++ slashes count ++ "/" ++ "" := by
  apply String.ext
  simp [slashes, List.replicate_succ']

theorem dropSlashes_spec (path : String) : ∃ count, path = dropSlashes path ++ slashes count := by
  -- what is dropped from the reversed text is a run of slashes, and so it is the other way round
  have parts := List.takeWhile_append_dropWhile (p := (· == '/')) (l := path.toList.reverse)
  have only : path.toList.reverse.takeWhile (· == '/') =
      List.replicate (path.toList.reverse.takeWhile (· == '/')).length '/' := by
    refine List.eq_replicate_iff.mpr ⟨rfl, fun c member => ?_⟩
    simpa using List.all_eq_true.mp List.all_takeWhile c member
  refine ⟨(path.toList.reverse.takeWhile (· == '/')).length, String.ext ?_⟩
  have turned := congrArg List.reverse parts
  rw [List.reverse_append, List.reverse_reverse, only] at turned
  simpa [dropSlashes, slashes] using turned.symm

theorem segments_slashes (path : String) (count : Nat) :
    segments (path ++ slashes count) = segments path ++ List.replicate count "" := by
  induction count with
  | zero => simp [slashes]
  | succ count ih =>
      rw [slashes_succ, segments_append, ih, List.append_assoc, List.replicate_succ']
      rfl

theorem segments_dropSlashes (path : String) :
    ∃ count, segments path = segments (dropSlashes path) ++ List.replicate count "" := by
  obtain ⟨count, same⟩ := dropSlashes_spec path
  refine ⟨count, ?_⟩
  rw [← segments_slashes, ← same]

theorem steps_dropSlashes (path : String) : steps (dropSlashes path) = steps path := by
  obtain ⟨count, same⟩ := segments_dropSlashes path
  simp [steps, same]

theorem above_of_join {directory name : String} (proper : IsName name)
    (above : ".." ∈ segments (join directory name)) : ".." ∈ segments directory := by
  have other : ".." ≠ name := fun same => proper.above same.symm
  unfold join at above
  dsimp only at above
  split at above
  · rw [proper.segments] at above
    simp [other] at above
  · obtain ⟨count, same⟩ := segments_dropSlashes directory
    rw [segments_append, proper.segments] at above
    rw [same]
    simpa [other] using above

theorem steps_join {directory name : String} (proper : IsName name) :
    steps (join directory name) = steps directory ++ [name] := by
  rw [← steps_dropSlashes directory]
  unfold join
  dsimp only
  split
  · rename_i root
    -- a directory that is written as nothing, or as a dot, has no steps
    have nowhere : steps (dropSlashes directory) = [] := by
      rcases root with same | same <;> rw [same] <;> decide
    rw [nowhere, proper.steps]
    rfl
  · rw [steps_append, proper.steps]

theorem fileName_join {directory name : String} (proper : IsName name) :
    fileName (join directory name) = name := by
  unfold join fileName
  dsimp only
  split
  · rw [splitFile_of_free proper.free]
  · rw [splitFile_append _ proper.free]

theorem endsInSlash_append {name : String} (before : String) (filled : name ≠ "")
    (free : '/' ∉ name.toList) : endsInSlash (before ++ name) = false := by
  have letters : name.toList ≠ [] := fun none => filled (String.ext none)
  obtain ⟨c, last⟩ := Option.isSome_iff_exists.mp (List.getLast?_isSome.mpr letters)
  have other : c ≠ '/' := by
    rintro rfl
    exact free (List.mem_of_getLast? last)
  simp [endsInSlash, List.getLast?_append, last, other]

theorem dropSlashes_of_ends {path : String} (ends : endsInSlash path = false) :
    dropSlashes path = path := by
  obtain ⟨count, same⟩ := dropSlashes_spec path
  cases count with
  | zero => simpa [slashes] using same.symm
  | succ count =>
      rw [same] at ends
      simp [endsInSlash, slashes, List.replicate_succ'] at ends

theorem baseName_append {name : String} (before : String) (filled : name ≠ "")
    (free : '/' ∉ name.toList) : baseName (before ++ "/" ++ name) = name := by
  rw [baseName, dropSlashes_of_ends (endsInSlash_append _ filled free), segments_append,
    segments_of_free free]
  simp

theorem baseName_of_free {name : String} (filled : name ≠ "") (free : '/' ∉ name.toList) :
    baseName name = name := by
  have ends : endsInSlash name = false := by simpa using endsInSlash_append "" filled free
  rw [baseName, dropSlashes_of_ends ends, segments_of_free free]
  rfl

theorem endsInSlash_join {directory name : String} (proper : IsName name) :
    endsInSlash (join directory name) = false := by
  unfold join
  dsimp only
  split
  · simpa using endsInSlash_append "" proper.filled proper.free
  · exact endsInSlash_append _ proper.filled proper.free

theorem above_of_splitFile {path : String} (proper : IsName (splitFile path).2)
    (above : ".." ∈ segments path) : ".." ∈ segments (splitFile path).1 := by
  have other : ".." ≠ (splitFile path).2 := fun same => proper.above same.symm
  rcases (splitFile_cases path).2 with whole | alone
  · rw [whole, segments_append, proper.segments] at above
    simpa [other] using above
  · rw [alone] at proper other
    rw [proper.segments] at above
    simp [other] at above

theorem endsInSlash_splitFile {path : String} (proper : IsName (splitFile path).2) :
    endsInSlash path = false := by
  rcases (splitFile_cases path).2 with whole | alone
  · rw [whole]
    exact endsInSlash_append _ proper.filled proper.free
  · rw [alone] at proper
    simpa using endsInSlash_append "" proper.filled proper.free

theorem getLast_splitFile {path : String} {c : Char} (other : c ≠ '/')
    (ends : path.toList.getLast? = some c) : (splitFile path).2.toList.getLast? = some c := by
  rcases (splitFile_cases path).2 with whole | alone
  · have letters := congrArg (fun text => text.toList.getLast?) whole
    simp only [ends, String.toList_append, List.getLast?_append] at letters
    cases last : (splitFile path).2.toList.getLast? with
    | none => simp [last, other] at letters
    | some d => simpa [last, eq_comm] using letters
  · rw [alone]
    exact ends

theorem not_isWildcard_iff {segment : String} :
    isWildcard segment = false ↔
      '?' ∉ segment.toList ∧ '*' ∉ segment.toList ∧ '\x7b' ∉ segment.toList := by
  simp only [isWildcard, List.any_eq_false, Bool.or_eq_true, beq_iff_eq, not_or]
  constructor
  · intro none
    exact ⟨fun member => (none _ member).1.1 rfl, fun member => (none _ member).1.2 rfl,
      fun member => (none _ member).2 rfl⟩
  · rintro ⟨question, asterisk, brace⟩ c member
    refine ⟨⟨?_, ?_⟩, ?_⟩ <;> rintro rfl <;> contradiction

/-- What can stand in the name of an item can be the name of a directory. -/
theorem IsName.of_part {name : String} (part : Name.IsPart name) : IsName name := by
  have dotless : '.' ∉ name.toList := part.not_mem (by decide) (by decide)
  refine ⟨part.ne_empty, ?_, ?_, part.not_mem (by decide) (by decide)⟩ <;> rintro rfl <;>
    exact dotless (by decide)

/-- Identifiers are no patterns. -/
theorem not_isWildcard_of_isIdentifier {name : String}
    (identifier : Name.isIdentifier name = true) : isWildcard name = false :=
  not_isWildcard_iff.mpr ⟨Name.not_mem_isIdentifier identifier (by decide),
    Name.not_mem_isIdentifier identifier (by decide),
    Name.not_mem_isIdentifier identifier (by decide)⟩

end Rollout.Path
