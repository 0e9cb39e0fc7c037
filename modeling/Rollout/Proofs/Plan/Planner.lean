import Rollout.Plan.Planner
import Rollout.Proofs.Command.Understood
import Rollout.Proofs.Layout
import Rollout.Proofs.Plan.Draft
import Rollout.Proofs.Plan.Expand

/-!
The questions that planning asks. Files that are found are recorded at the ref of the planner, and
no answer leads to an error that blames the command.
-/

namespace Rollout

/-- Does the error say that a command was not understood, although it was parsed? No error says
that a pattern cannot be read, as every segment spells one. -/
def PlanError.isMisread : PlanError → Bool
  | unknownCommand _ | malformedName _ _ | missingList _ | unsupportedSeed _ | missingValue _ =>
      true
  | _ => false

namespace Planner

variable {Value : Type} (planner : Planner)

/-- The file was found, at the ref of the planner. -/
def Records (file : FileRef) : Prop :=
  file.ref = planner.ref ∧ planner.snapshot.Found file.path

/-- Whatever file the event is about was found. -/
def Sees : Draft.Event → Prop
  | .step step => ∀ file, step.file? = some file → planner.Records file
  | _ => True

/-- The draft is about files that were found, and does not blame the command. -/
abbrev Sound (values : Value → Prop) (draft : Draft Value) : Prop :=
  draft.Meets planner.Sees (fun error => error.isMisread = false) values

variable {planner}

theorem step_sound {step : Step} (held : ∀ file, step.file? = some file → planner.Records file) :
    planner.Sound (fun _ => True) (Draft.step step) :=
  .event held

theorem resolve_sound {kind : FileKind} {verb : Option Verb} {schema item : Option String}
    {values : List String → Prop} {pattern : String}
    (rendered : kind.render (if kind.isPrivileges then verb.map Verb.privileges else verb) schema
      item = .ok pattern)
    (expanded : ∀ paths, Plan.expand planner.snapshot pattern = .ok paths → values paths) :
    planner.Sound values (planner.resolve kind verb schema item) := by
  simp only [resolve, rendered, Draft.bind_eq, Draft.pure_eq]
  exact .andThen (.ofSource (fun _ => rfl) expanded) fun paths held =>
    .andThen (.event trivial) fun _ _ => .done held

theorem fileStep_sound {step : Step} {file : FileRef} (about : step.file? = some file)
    (records : planner.Records file) : planner.Sound (fun _ => True) (Draft.step step) := by
  refine step_sound fun other same => ?_
  rw [about] at same
  cases same
  exact records

theorem plainStep_sound {step : Step} (plain : step.file? = none) :
    planner.Sound (fun _ => True) (Draft.step step) := by
  refine step_sound fun file same => ?_
  rw [plain] at same
  cases same

/-- Scripts for a verb have no escaped names. -/
theorem found_of_scripts {kind : FileKind} {verb : Option Verb} {schema item : Option String}
    {pattern path : String} {paths : List String} (scripts : kind.isScripts = true)
    (rendered : kind.render verb schema item = .ok pattern)
    (expanded : Plan.expand planner.snapshot pattern = .ok paths) (member : path ∈ paths) :
    planner.snapshot.Found path := by
  obtain ⟨_, directory, name, -, -, rfl, lists, accepted⟩ := Plan.mem_expand expanded member
  obtain ⟨start, whole⟩ := FileKind.render_ends scripts rendered
  have ends : pattern.toList.getLast? = some 'l' := by simp [whole]
  have last := Glob.getLast_of_accepts (by decide) (by decide) (by decide)
    (Path.getLast_splitFile (by decide) ends) accepted
  refine .matched lists ?_
  rw [last]
  decide

theorem emitFound_sound {kind : FileKind} {schema item : Option String} (verb : Verb)
    (scripts : kind.isScripts = true)
    (rendered : ∀ verb : Verb, ∃ pattern, kind.render (some verb) schema item = .ok pattern) :
    planner.Sound (fun _ => True) (planner.emitFound kind verb schema item) := by
  have given : ∃ pattern, kind.render
      (if kind.isPrivileges then (some verb).map Verb.privileges else some verb) schema item =
        .ok pattern := by
    split
    · exact rendered verb.privileges
    · exact rendered verb
  obtain ⟨pattern, given⟩ := given
  have resolved : planner.Sound (fun paths => ∀ path ∈ paths, planner.snapshot.Found path)
      (planner.resolve kind (some verb) schema item) :=
    resolve_sound given fun paths expanded path member =>
      found_of_scripts scripts given expanded member
  simp only [emitFound, Draft.bind_eq, Draft.pure_eq]
  refine .andThen resolved fun paths found => .andThen (.each fun path member => ?_) fun _ _ =>
    .done trivial
  exact fileStep_sound rfl ⟨rfl, found path member⟩

theorem emit_sound {kind : FileKind} {schema item : Option String} (verb : Verb)
    (scripts : kind.isScripts = true)
    (rendered : ∀ verb : Verb, ∃ pattern, kind.render (some verb) schema item = .ok pattern) :
    planner.Sound (fun _ => True) (planner.emit kind verb schema item) :=
  .andThen (emitFound_sound verb scripts rendered) fun _ _ => .done trivial

/-- A name that a schema or an item can have in a pattern. -/
structure Fits (name : String) : Prop where
  plain : Plan.Plain name
  free : '\x7b' ∉ name.toList

theorem Fits.of_part {name : String} (part : Name.IsPart name) : Fits name :=
  have proper := Path.IsName.of_part part
  ⟨⟨proper.filled, proper.here, proper.free⟩, part.not_mem (by decide) (by decide)⟩

theorem folderNames_sound (orderly : planner.snapshot.Orderly) (directory : String) :
    planner.Sound (fun names => ∀ name ∈ names, Fits name) (planner.folderNames directory) := by
  refine .ofSource (fun _ => rfl) fun names listed name member => ?_
  obtain ⟨folders, shown, rfl⟩ := Outcome.map_eq_ok.mp listed
  obtain ⟨proper, unmarked⟩ := Snapshot.mem_folders orderly shown member
  exact ⟨⟨proper.filled, proper.here, proper.free⟩, (Path.not_isWildcard_iff.mp unmarked).2.2⟩

theorem schemas_sound (orderly : planner.snapshot.Orderly) :
    planner.Sound (fun names => ∀ name ∈ names, Fits name) planner.schemas :=
  folderNames_sound orderly "schemas"

end Planner

namespace Command

variable {command : Command}

theorem splitName_sound {planner : Planner} {name : String} (qualified : Name.IsQualified name) :
    planner.Sound (fun pair : String × String => Name.IsPart pair.1 ∧ Name.IsPart pair.2)
      (command.splitName name) := by
  obtain ⟨schema, item, split, parts⟩ := qualified
  simp only [splitName, split]
  exact .done parts

/-- Does the clause leave the schema? -/
def keeps (command : Command) (schema : String) : Bool :=
  match command.clause with
  | some .within => command.schemaNames.contains schema
  | some clause => !(clause.isExclusion && command.schemaNames.contains schema)
  | none => true

theorem filterSchemas_eq (command : Command) (schemas : List String) :
    command.filterSchemas schemas = schemas.filter command.keeps := by
  unfold filterSchemas keeps
  cases command.clause with
  | none => simp
  | some clause => cases clause <;> first | rfl | simp [Clause.isExclusion]

theorem filterSchemas_bare (bare : command.clause = none) (schemas : List String) :
    command.filterSchemas schemas = schemas := by
  unfold filterSchemas
  rw [bare]

theorem filterSchemas_within (within : command.clause = some .within) (schemas : List String) :
    command.filterSchemas schemas = schemas.filter command.schemaNames.contains := by
  unfold filterSchemas
  rw [within]

theorem filterSchemas_exceptIn (except : command.clause = some .exceptIn)
    (schemas : List String) :
    command.filterSchemas schemas = schemas.filter (!command.schemaNames.contains ·) := by
  unfold filterSchemas
  rw [except]
  rfl

theorem mem_filterSchemas {schemas : List String} {schema : String}
    (member : schema ∈ command.filterSchemas schemas) : schema ∈ schemas := by
  rw [filterSchemas_eq] at member
  exact List.mem_of_mem_filter member

theorem selectSeeds_bare (bare : command.clause = none) (files : List String) :
    command.selectSeeds files = files := by
  unfold selectSeeds
  rw [bare]

theorem selectSeeds_with (picks : command.clause = some .withSeeds) (files : List String) :
    command.selectSeeds files = command.seedNames.flatMap fun name =>
      files.filter fun file => Path.stem file == name := by
  unfold selectSeeds
  rw [picks]

theorem selectSeeds_without (omits : command.clause = some .withoutSeeds) (files : List String) :
    command.selectSeeds files =
      files.filter fun file => !command.seedNames.contains (Path.stem file) := by
  unfold selectSeeds
  rw [omits]
  rfl

theorem mem_selectSeeds {files : List String} {file : String}
    (member : file ∈ command.selectSeeds files) : file ∈ files := by
  unfold selectSeeds at member
  split at member
  · obtain ⟨name, -, kept⟩ := List.mem_flatMap.mp member
    exact (List.mem_filter.mp kept).1
  · split at member
    · exact (List.mem_filter.mp member).1
    · exact member
  · exact member

end Command

end Rollout
