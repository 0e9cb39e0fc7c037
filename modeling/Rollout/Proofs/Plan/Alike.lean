import Rollout.Proofs.Layout
import Rollout.Proofs.Plan.Draft
import Rollout.Proofs.Plan.Expand
import Rollout.Proofs.Source.Twins
import Rollout.Plan.Planner

/-!
Drafts that are alike: they differ in what their steps record and in nothing else, or both fail.
Patterns are expanded alike in source trees that list and read alike.
-/

namespace Rollout

namespace Draft

variable {Value Next : Type}

inductive Event.Alike (steps : Step → Step → Prop) : Event → Event → Prop where
  | tried (pattern : String) : Alike steps (.tried pattern) (.tried pattern)
  | step {first second : Step} (same : steps first second) :
      Alike steps (.step first) (.step second)
  | listing (kind : ListKind) {command other : Command}
      (same : other.filterSchemas = command.filterSchemas) :
      Alike steps (.listing kind command) (.listing kind other)

/-- Both go on, with the same value and with events that are alike one by one; or both fail. -/
inductive Alike (steps : Step → Step → Prop) (values : Value → Prop) :
    Draft Value → Draft Value → Prop where
  | ok {first second : List Event} {value : Value}
      (events : List.Forall₂ (Event.Alike steps) first second) (held : values value) :
      Alike steps values ⟨first, .ok value⟩ ⟨second, .ok value⟩
  | error (first second : List Event) (fault other : PlanError) :
      Alike steps values ⟨first, .error fault⟩ ⟨second, .error other⟩

namespace Alike

variable {steps : Step → Step → Prop} {values : Value → Prop} {results : Next → Prop}

theorem done {value : Value} (held : values value) :
    Alike steps values (Draft.done value) (Draft.done value) :=
  .ok .nil held

theorem fail (fault other : PlanError) :
    Alike steps values (Draft.fail fault) (Draft.fail other) :=
  .error _ _ _ _

theorem tried (pattern : String) :
    Alike steps (fun _ => True) (Draft.tried pattern) (Draft.tried pattern) :=
  .ok (.cons (.tried pattern) .nil) trivial

theorem step {first second : Step} (same : steps first second) :
    Alike steps (fun _ => True) (Draft.step first) (Draft.step second) :=
  .ok (.cons (.step same) .nil) trivial

theorem ofSource {first second : Except SourceError Value} (agree : Outcome.Agree first second)
    (held : ∀ value, first = .ok value → values value) :
    Alike steps values (Draft.ofSource first) (Draft.ofSource second) := by
  rcases Outcome.agree_iff.mp agree with ⟨value, rfl, rfl⟩ | ⟨fault, other, rfl, rfl⟩
  · exact .ok .nil (held value rfl)
  · exact .error _ _ _ _

theorem andThen {first second : Draft Value} {next other : Value → Draft Next}
    (start : Alike steps values first second)
    (rest : ∀ value, values value → Alike steps results (next value) (other value)) :
    Alike steps results (first.andThen next) (second.andThen other) := by
  cases start with
  | error => exact .error _ _ _ _
  | @ok before after value events held =>
      have more := rest value held
      unfold Draft.andThen
      dsimp only
      cases one : next value with
      | mk firstEvents firstOutcome =>
          cases two : other value with
          | mk secondEvents secondOutcome =>
              rw [one, two] at more
              cases more with
              | ok later settled => exact .ok (List.rel_append events later) settled
              | error => exact .error _ _ _ _

theorem each {first second : Value → Draft Unit} {list : List Value}
    (all : ∀ value ∈ list, Alike steps (fun _ => True) (first value) (second value)) :
    Alike steps (fun _ => True) (Draft.each first list) (Draft.each second list) := by
  induction list with
  | nil => exact done trivial
  | cons value rest ih =>
      obtain ⟨here, later⟩ := List.forall_mem_cons.mp all
      exact andThen here fun _ _ => ih later

theorem weaken {first second : Draft Value} {others : Value → Prop}
    (alike : Alike steps values first second) (follows : ∀ value, values value → others value) :
    Alike steps others first second := by
  cases alike with
  | ok events held => exact .ok events (follows _ held)
  | error => exact .error _ _ _ _

end Alike

end Draft

namespace Path

/-- Does the path begin with a colon? To a listing of a commit that is a mark, and not part of a
name. -/
def isMarked (path : String) : Bool := path.toList.head? == some ':'

/-- The path begins in a folder of the tree. -/
def Begun (path : String) : Prop := ∃ c, path.toList.head? = some c ∧ c ∉ [':', '.', '/']

theorem Begun.not_marked {path : String} (begun : Begun path) : isMarked path = false := by
  obtain ⟨c, first, other⟩ := begun
  unfold isMarked
  rw [first]
  rw [beq_eq_false_iff_ne]
  rintro ⟨⟩
  exact other (by decide)

theorem Begun.append {path : String} (begun : Begun path) (more : String) :
    Begun (path ++ more) := by
  obtain ⟨c, first, other⟩ := begun
  exact ⟨c, by rw [String.toList_append, List.head?_append, first]; rfl, other⟩

theorem Begun.ne_empty {path : String} (begun : Begun path) : path ≠ "" := by
  rintro rfl
  obtain ⟨c, first, -⟩ := begun
  cases first

theorem Begun.join {directory : String} (begun : Begun directory) (name : String) :
    Begun (join directory name) := by
  obtain ⟨c, first, other⟩ := begun
  rcases join_cases directory name with ⟨root, -⟩ | ⟨-, same⟩
  · obtain ⟨count, whole⟩ := dropSlashes_spec directory
    exfalso
    rw [whole] at first
    rcases root with none | dot
    · rw [none] at first
      cases count with
      | zero => cases first
      | succ count =>
          obtain rfl : '/' = c := by simpa [slashes, List.replicate_succ] using first
          exact other (by decide)
    · rw [dot] at first
      obtain rfl : '.' = c := by simpa using first
      exact other (by decide)
  · exact ⟨c, same.trans first, other⟩

end Path

namespace Snapshot

/-- Two source trees with the same listings and the same texts, or both without. Directories that
begin with a mark are left out, and only files that are listed count. -/
structure Alike (here there : Snapshot) : Prop where
  entries : ∀ directory, Path.isMarked directory = false →
    Outcome.Agree (here.entries directory) (there.entries directory)
  read : ∀ directory name, here.Lists directory name →
    Outcome.Agree (here.read (Path.join directory name)) (there.read (Path.join directory name))

variable {here there : Snapshot} {directory : String}

theorem Alike.files (alike : here.Alike there) (unmarked : Path.isMarked directory = false)
    (accepts : String → Bool) :
    Outcome.Agree (here.files directory accepts) (there.files directory accepts) :=
  (alike.entries directory unmarked).map _

theorem Alike.folders (alike : here.Alike there) (unmarked : Path.isMarked directory = false)
    (accepts : String → Bool) :
    Outcome.Agree (here.folders directory accepts) (there.folders directory accepts) :=
  (alike.entries directory unmarked).map _

end Snapshot

namespace Plan

theorem gather_agree {Value Result Fault : Type} {first second : Value → Except Fault (List Result)}
    {values : List Value} (agree : ∀ value ∈ values, Outcome.Agree (first value) (second value)) :
    Outcome.Agree (gather first values) (gather second values) := by
  induction values with
  | nil => rfl
  | cons value rest ih =>
      obtain ⟨here, later⟩ := List.forall_mem_cons.mp agree
      unfold gather
      rcases Outcome.agree_iff.mp here with ⟨found, one, two⟩ | ⟨fault, other, one, two⟩ <;>
        rw [one, two]
      · exact (ih later).map _
      · rfl

variable {here there : Snapshot}

theorem begun_of_expandFrom {segments : List String} {directory last : String}
    {directories : List String} (begun : Path.Begun directory)
    (expanded : expandFrom here directory segments = .ok directories)
    (member : last ∈ directories) : Path.Begun last := by
  induction segments generalizing directory directories with
  | nil =>
      cases expanded
      obtain rfl := List.mem_singleton.mp member
      exact begun
  | cons segment rest ih =>
      unfold expandFrom at expanded
      split at expanded
      · split at expanded
        · cases expanded
        · obtain ⟨name, -, further, went, within⟩ := mem_gather expanded member
          exact ih (begun.join name) went within
      · dsimp only at expanded
        rw [if_neg begun.ne_empty] at expanded
        exact ih ((begun.append "/").append segment) expanded member

theorem expandFrom_agree (alike : here.Alike there) {segments : List String} {directory : String}
    (begun : Path.Begun directory) :
    Outcome.Agree (expandFrom here directory segments) (expandFrom there directory segments) := by
  induction segments generalizing directory with
  | nil => rfl
  | cons segment rest ih =>
      unfold expandFrom
      split
      · have folders := alike.folders begun.not_marked fun _ => true
        rcases Outcome.agree_iff.mp folders with ⟨found, one, two⟩ | ⟨fault, other, one, two⟩ <;>
          rw [one, two]
        · exact gather_agree fun name _ => ih (begun.join name)
        · rfl
      · dsimp only
        rw [if_neg begun.ne_empty]
        exact ih ((begun.append "/").append segment)

/-- The pattern names files at the top, or its first folder. -/
def Rooted (pattern : String) : Prop :=
  '/' ∉ pattern.toList ∨ ∃ folder rest, pattern = folder ++ "/" ++ rest ∧ Path.Begun folder ∧
    '/' ∉ folder.toList ∧ Path.isWildcard folder = false

theorem Rooted.of_start {pattern : String} (folder : String) (begun : Path.Begun folder)
    (free : '/' ∉ folder.toList) (tame : Path.isWildcard folder = false)
    (begins : (folder ++ "/").toList <+: pattern.toList) : Rooted pattern := by
  obtain ⟨rest, whole⟩ := begins
  refine .inr ⟨folder, String.ofList rest, ?_, begun, free, tame⟩
  apply String.ext
  simp [← whole]

theorem Rooted.directory {pattern : String} (rooted : Rooted pattern) :
    (Path.splitFile pattern).1 = "" ∨ ∃ folder, Path.Begun folder ∧
      Path.isWildcard folder = false ∧ Path.Begun (Path.splitFile pattern).1 ∧
      ∃ more, Path.segments (Path.splitFile pattern).1 = folder :: more := by
  rcases rooted with free | ⟨folder, rest, rfl, begun, free, tame⟩
  · exact .inl (by rw [Path.splitFile_of_free free])
  · right
    refine ⟨folder, begun, tame, ?_⟩
    obtain ⟨last, whole | alone⟩ := Path.splitFile_cases rest
    · generalize (Path.splitFile rest).1 = inner, (Path.splitFile rest).2 = file at whole last
      have parts : folder ++ "/" ++ rest = folder ++ "/" ++ inner ++ "/" ++ file := by
        rw [whole]
        simp only [String.append_assoc]
      rw [parts, Path.splitFile_append _ last]
      exact ⟨(begun.append "/").append inner, Path.segments inner, by
        rw [Path.segments_append, Path.segments_of_free free]; rfl⟩
    · rw [alone] at last
      rw [Path.splitFile_append _ last]
      exact ⟨begun, [], Path.segments_of_free free⟩

theorem expandDirectories_agree (alike : here.Alike there) {pattern : String}
    (rooted : Rooted pattern) :
    Outcome.Agree (expandDirectories here (Path.splitFile pattern).1)
      (expandDirectories there (Path.splitFile pattern).1) ∧
    ∀ directories, expandDirectories here (Path.splitFile pattern).1 = .ok directories →
      ∀ directory ∈ directories, Path.isMarked directory = false := by
  rcases rooted.directory with top | ⟨folder, begun, tame, whole, more, segments⟩
  · rw [top]
    refine ⟨rfl, ?_⟩
    rintro _ ⟨⟩
    decide
  · -- the first folder stands for itself, so all directories are in it
    have start (snapshot : Snapshot) (rest : List String) :
        expandFrom snapshot "" (folder :: rest) = expandFrom snapshot folder rest := by
      rw [expandFrom, if_neg (by simp [tame])]
      rfl
    have kept : (Path.segments (Path.splitFile pattern).1).filter (· != "") =
        folder :: more.filter (· != "") := by
      rw [segments, List.filter_cons_of_pos (by simpa using begun.ne_empty)]
    unfold expandDirectories
    rw [kept]
    dsimp only
    split
    · rw [start, start]
      refine ⟨expandFrom_agree alike begun, fun directories expanded directory member => ?_⟩
      exact (begun_of_expandFrom begun expanded member).not_marked
    · refine ⟨rfl, ?_⟩
      rintro _ ⟨⟩ directory member
      obtain rfl := List.mem_singleton.mp member
      exact whole.not_marked

/-- A pattern is expanded alike. -/
theorem expand_agree (alike : here.Alike there) {pattern : String} (rooted : Rooted pattern) :
    Outcome.Agree (expand here pattern) (expand there pattern) := by
  obtain ⟨agree, unmarked⟩ := expandDirectories_agree alike rooted
  unfold expand
  dsimp only
  rcases Outcome.agree_iff.mp agree with ⟨directories, one, two⟩ | ⟨fault, other, one, two⟩ <;>
    rw [one, two]
  · refine (gather_agree fun directory member => ?_).map _
    exact alike.files (unmarked directories one directory member) _
  · rfl

end Plan

theorem Text.mem_replaceAfter {word value text : List Char} {skip : Nat} {c : Char}
    (member : c ∈ replaceAfter word value skip text) : c ∈ value ∨ c ∈ text := by
  induction text generalizing skip with
  | nil => simp [replaceAfter] at member
  | cons first rest ih =>
      have later (skip : Nat) (within : c ∈ replaceAfter word value skip rest) :
          c ∈ value ∨ c ∈ first :: rest :=
        (ih within).imp_right (List.mem_cons_of_mem _)
      cases skip with
      | succ skip => exact later skip member
      | zero =>
          unfold replaceAfter at member
          split at member
          · rcases List.mem_append.mp member with here | deeper
            · exact .inl here
            · exact later _ deeper
          · rcases List.mem_cons.mp member with same | deeper
            · exact .inr (same ▸ List.mem_cons_self)
            · exact later 0 deeper

namespace FileKind

variable {kind : FileKind} {verb : Option Verb} {schema item : Option String} {pattern : String}

/-- What stands before the first place of a template stays at the start. -/
theorem render_starts {start : List Char} (free : '\x7b' ∉ start)
    (begins : start <+: kind.template.toList)
    (rendered : kind.render verb schema item = .ok pattern) : start <+: pattern.toList := by
  unfold render at rendered
  dsimp only at rendered
  split at rendered
  · cases rendered
  · rename_i first one
    split at rendered
    · cases rendered
    · rename_i second two
      obtain ⟨third, three, rfl⟩ := Outcome.map_eq_ok.mp rendered
      rw [String.toList_ofList]
      exact fill_starts free (fill_starts free (fill_starts free begins one) two) three

theorem render_top (ofDatabase : kind.isOfDatabase = true)
    (rendered : kind.render verb schema item = .ok pattern) : '/' ∉ pattern.toList := by
  have absent : ∀ place ∈ [Placeholder.schema, .item],
      Text.occurs place.token kind.template.toList = false := by
    revert ofDatabase
    cases kind <;> decide +kernel
  have free : '/' ∉ kind.template.toList := by
    revert ofDatabase
    cases kind <;> decide +kernel
  simp only [render, fill_absent _ _ (absent .schema (by decide)),
    fill_absent _ _ (absent .item (by decide))] at rendered
  obtain ⟨out, filled, rfl⟩ := Outcome.map_eq_ok.mp rendered
  rw [String.toList_ofList]
  intro member
  unfold fill at filled
  split at filled
  · cases verb with
    | none => cases filled
    | some verb =>
        cases filled
        rcases Text.mem_replaceAfter member with named | written
        · revert named
          cases verb <;> decide
        · exact free written
  · cases filled
    exact free member

/-- Whatever fills the places of a template, its pattern names files at the top or begins with a
folder that the template names. -/
theorem render_rooted (rendered : kind.render verb schema item = .ok pattern) :
    Plan.Rooted pattern := by
  cases top : kind.isOfDatabase with
  | true => exact .inl (render_top top rendered)
  | false =>
      have begins : "schemas/".toList <+: kind.template.toList ∨
          "seeds/".toList <+: kind.template.toList := by
        revert top
        cases kind <;> decide +kernel
      rcases begins with schemas | seeds
      · exact .of_start "schemas" ⟨'s', rfl, by decide⟩ (by decide) (by decide)
          (render_starts (by decide) schemas rendered)
      · exact .of_start "seeds" ⟨'s', rfl, by decide⟩ (by decide) (by decide)
          (render_starts (by decide) seeds rendered)

end FileKind

end Rollout
