import Rollout.Proofs.Plan.Objects
import Rollout.Proofs.Plan.Placed

/-!
Which files planning finds where it looks for a kind of file. They are those that stand where the
filled in template leads, each once; and no folder that can be listed has the name of a pattern.
-/

namespace Rollout

namespace Planner

variable {planner : Planner} {kind : FileKind} {verb : Verb} {schema : String}
  {item : Option String} {pattern path : String} {paths : List String}

theorem resolve_eq {schema : Option String}
    (rendered : kind.render (some (kind.verbFor verb)) schema item = .ok pattern)
    (expanded : Plan.expand planner.snapshot pattern = .ok paths) :
    planner.resolve kind (some verb) schema item = ⟨[.tried pattern], .ok paths⟩ := by
  have same : (if kind.isPrivileges then (some verb).map Verb.privileges else some verb) =
      some (kind.verbFor verb) := by
    unfold FileKind.verbFor
    split <;> rfl
  simp only [resolve, same, rendered, expanded]
  rfl

theorem emitFound_eq {schema : Option String}
    (rendered : kind.render (some (kind.verbFor verb)) schema item = .ok pattern)
    (expanded : Plan.expand planner.snapshot pattern = .ok paths) :
    planner.emitFound kind verb schema item =
      ⟨.tried pattern :: paths.map fun path => .step (.execFile (planner.file path)),
        .ok paths⟩ := by
  simp only [emitFound, resolve_eq rendered expanded, Draft.bind_eq, Draft.andThen,
    Draft.each_step]
  simp [Draft.pure_eq, Draft.done]

/-- Commands on items are on those that are listed, or on all of a class. -/
theorem planObjects_items {command : Command} {object : String} {items : ItemClass} {plural : Bool}
    (named : command.object = some object)
    (known : ItemClass.ofObject? object = some (items, plural)) :
    planner.planObjects command verb =
      if plural then planner.planAllItems command verb items
      else planner.planListedItems command verb items := by
  unfold ItemClass.ofObject? at known
  split at known <;> cases known
  all_goals
    unfold planObjects
    rw [named]
    rfl

/-- A kind of file is looked for at a path, the last segment of which accepts no escaped form. -/
structure Seeks (kind : FileKind) (verb : Verb) (schema : String) (item : Option String)
    (segments : List String) (file : String) : Prop where
  rendered : kind.render (some (kind.verbFor verb)) (some schema) item =
    .ok (Path.ofSegments (segments ++ [file]))
  holdable : ∀ segment ∈ segments, Path.Holdable segment
  free : '/' ∉ file.toList
  plain : ∀ name, (Glob.ofSegment file).accepts name = true → name.toList.getLast? ≠ some '"'

/-- A file of the tree, by the names that lead to it; it is listed as it is. -/
structure Stands (snapshot : Snapshot) (names : List String) (name : String) : Prop where
  named : ∀ name ∈ names, Path.IsName name
  last : Path.IsName name
  hasFile : snapshot.HasFile (Path.ofSegments (names ++ [name]))
  shows : snapshot.Shows (Path.ofSegments (names ++ [name]))

theorem Stands.steps {snapshot : Snapshot} {names : List String} {name : String}
    (stands : Stands snapshot names name) :
    Path.steps (Path.ofSegments (names ++ [name])) = names ++ [name] := by
  have named : ∀ part ∈ names ++ [name], Path.IsName part :=
    List.forall_mem_append.mpr ⟨stands.named, List.forall_mem_singleton.mpr stands.last⟩
  exact (Plan.Written.of_names named).steps named

/-- What stands where a kind of file is looked for. -/
inductive Hits (snapshot : Snapshot) (segments : List String) (file : String) : String → Prop where
  | at {names : List String} {name : String} (stands : Stands snapshot names name)
      (each : List.Forall₂ Plan.Chosen segments names)
      (accepted : (Glob.ofSegment file).accepts name = true) :
      Hits snapshot segments file (Path.ofSegments (names ++ [name]))

theorem Stands.segments {snapshot : Snapshot} {names : List String} {name : String}
    (stands : Stands snapshot names name) :
    Path.segments (Path.ofSegments (names ++ [name])) = names ++ [name] :=
  Text.splitAt_intercalate (by simp) (List.forall_mem_append.mpr
    ⟨fun name member => (stands.named name member).free,
      List.forall_mem_singleton.mpr stands.last.free⟩)

theorem hits_iff {snapshot : Snapshot} {segments names : List String} {file name : String}
    (stands : Stands snapshot names name) :
    Hits snapshot segments file (Path.ofSegments (names ++ [name])) ↔
      List.Forall₂ Plan.Chosen segments names ∧ (Glob.ofSegment file).accepts name = true := by
  constructor
  · intro hits
    -- the path tells its names, so the two ways to it are one
    generalize same : Path.ofSegments (names ++ [name]) = path at hits
    obtain ⟨others, each, accepted⟩ := hits
    have parts := stands.segments.symm.trans ((congrArg Path.segments same).trans others.segments)
    obtain ⟨rfl, last⟩ := List.append_inj' parts rfl
    cases last
    exact ⟨each, accepted⟩
  · exact fun ⟨each, accepted⟩ => .at stands each accepted

/-- Files that a pattern is expanded to are those that stand where it leads, each once. -/
theorem expand_hits {snapshot : Snapshot} (tidy : snapshot.Tidy) (orderly : snapshot.Orderly)
    {segments : List String} {file : String}
    (holdable : ∀ segment ∈ segments, Path.Holdable segment) (free : '/' ∉ file.toList)
    (plain : ∀ name, (Glob.ofSegment file).accepts name = true →
      name.toList.getLast? ≠ some '"') :
    ∃ paths, Plan.expand snapshot (Path.ofSegments (segments ++ [file])) = .ok paths ∧
      paths.Nodup ∧ ∀ path, path ∈ paths ↔ Hits snapshot segments file path := by
  have straight := Plan.straight_ofSegments holdable free
  have split : (Path.splitFile (Path.ofSegments (segments ++ [file]))).2 = file := by
    rw [Plan.splitFile_ofSegments free]
  obtain ⟨paths, expanded⟩ := Plan.expand_ok tidy orderly straight
  refine ⟨paths, expanded, Plan.expand_nodup tidy orderly straight expanded,
    fun path => ⟨fun member => ?_, ?_⟩⟩
  · have shows := Plan.shows_of_mem_expand tidy orderly straight
      (fun name accepted => plain name (by rwa [split] at accepted)) expanded member
    have hasFile := ((Plan.mem_expand_iff tidy orderly straight expanded shows).mp member).1
    obtain ⟨directory, names, name, written, named, each, joined, last, -, accepted⟩ :=
      Plan.mem_expand_parts orderly straight expanded member
    obtain rfl : path = Path.ofSegments (names ++ [name]) := joined.trans (written.join_eq last)
    have proper : ∀ segment ∈ segments, Path.IsName segment :=
      fun segment among => (holdable segment among).1
    rw [Plan.splitFile_ofSegments free] at each accepted
    rw [(Plan.Written.of_names proper).steps proper] at each
    exact .at ⟨named, last, hasFile, shows⟩ each accepted
  · rintro ⟨stands, each, accepted⟩
    rw [Plan.mem_expand_iff tidy orderly straight expanded stands.shows,
      Plan.spells_ofSegments (fun segment among => (holdable segment among).1) free
        stands.named stands.last]
    exact ⟨stands.hasFile, each, accepted⟩

/-- The event that a file is planned to be run. -/
def runs (planner : Planner) (path : String) : Draft.Event :=
  .step (.execFile (planner.file path))

theorem runs_inj {first second : String} (same : planner.runs first = planner.runs second) :
    first = second := by
  cases same
  rfl

theorem mem_runs : planner.runs path ∈ .tried pattern :: paths.map planner.runs ↔
    path ∈ paths := by
  constructor
  · intro member
    rcases List.mem_cons.mp member with tried | ran
    · cases tried
    · obtain ⟨other, among, same⟩ := List.mem_map.mp ran
      rwa [← runs_inj same]
  · exact fun among => List.mem_cons_of_mem _ (List.mem_map_of_mem among)

section Emitting

variable {segments names : List String} {file name : String}

variable (tidy : planner.snapshot.Tidy) (orderly : planner.snapshot.Orderly)

include tidy orderly

/-- The files that are planned are those that stand where they are looked for, each once. -/
theorem emitFound_hits (seeks : Seeks kind verb schema item segments file) :
    ∃ paths, planner.emitFound kind verb (some schema) item =
        ⟨.tried (Path.ofSegments (segments ++ [file])) :: paths.map planner.runs, .ok paths⟩ ∧
      paths.Nodup ∧ ∀ path, path ∈ paths ↔ Hits planner.snapshot segments file path := by
  obtain ⟨paths, expanded, found⟩ :=
    expand_hits tidy orderly seeks.holdable seeks.free seeks.plain
  exact ⟨paths, emitFound_eq seeks.rendered expanded, found⟩

theorem emitFound_once (seeks : Seeks kind verb schema item segments file)
    (stands : Stands planner.snapshot names name)
    (each : List.Forall₂ Plan.Chosen segments names)
    (accepted : (Glob.ofSegment file).accepts name = true) :
    (planner.emitFound kind verb (some schema) item).Tallies
      (planner.runs (Path.ofSegments (names ++ [name]))) 1 (· ≠ []) := by
  obtain ⟨paths, emitted, nodup, found⟩ := emitFound_hits tidy orderly seeks
  have member := (found _).mpr (.at stands each accepted)
  rw [emitted]
  refine ⟨?_, paths, rfl, List.ne_nil_of_mem member⟩
  have distinct : (paths.map planner.runs).Nodup :=
    List.pairwise_map.mpr (nodup.imp fun apart same => apart (runs_inj same))
  rw [List.count_cons_of_ne (by simp [runs]), distinct.count,
    if_pos (List.mem_map_of_mem member)]

theorem emitFound_never (seeks : Seeks kind verb schema item segments file)
    (stands : Stands planner.snapshot names name)
    (other : ¬ (List.Forall₂ Plan.Chosen segments names ∧
      (Glob.ofSegment file).accepts name = true)) :
    (planner.emitFound kind verb (some schema) item).Tallies
      (planner.runs (Path.ofSegments (names ++ [name]))) 0 fun _ => True := by
  obtain ⟨paths, emitted, -, found⟩ := emitFound_hits tidy orderly seeks
  rw [emitted]
  refine ⟨List.count_eq_zero.mpr fun member => ?_, paths, rfl, trivial⟩
  rcases List.mem_cons.mp member with tried | ran
  · cases tried
  · obtain ⟨path, held, same⟩ := List.mem_map.mp ran
    have hits := (found path).mp held
    rw [runs_inj same, hits_iff stands] at hits
    exact other hits

end Emitting

/-- A name in a path that is no pattern. -/
structure Literal (name : String) : Prop where
  holdable : Path.Holdable name
  literal : Path.isWildcard name = false

theorem Literal.free {name : String} (literal : Literal name) : '\x7b' ∉ name.toList :=
  (Path.not_isWildcard_iff.mp literal.literal).2.2

/-- The folders that lead to a file have no names of patterns. -/
theorem Stands.literal {snapshot : Snapshot} (tidy : snapshot.Tidy) (orderly : snapshot.Orderly)
    {names : List String} {name : String} (stands : Stands snapshot names name) :
    ∀ folder ∈ names, Literal folder := by
  intro folder member
  -- each folder on the way to a file is held by the one before it
  obtain ⟨before, after, rfl⟩ := List.append_of_mem member
  obtain ⟨content, led⟩ := stands.hasFile
  have split : before ++ folder :: after ++ [name] = before ++ [folder] ++ (after ++ [name]) := by
    simp
  rw [stands.steps, split] at led
  obtain ⟨inner, reached⟩ := Snapshot.reach_folder (by simp) led
  have held := Snapshot.held_of_reach reached
  exact ⟨tidy.held held, orderly.held held⟩

theorem Stands.file_held {snapshot : Snapshot} {names : List String} {name : String}
    (stands : Stands snapshot names name) : ⟨name, false⟩ ∈ snapshot.held names := by
  obtain ⟨content, led⟩ := stands.hasFile
  rw [stands.steps] at led
  exact Snapshot.held_of_reach led

theorem Stands.file_literal {snapshot : Snapshot} (tidy : snapshot.Tidy)
    (literal : snapshot.Literal) {names : List String} {name : String}
    (stands : Stands snapshot names name) : Literal name :=
  ⟨tidy.held stands.file_held, literal.held stands.file_held⟩

theorem chosen_literal {segment name : String} (literal : Path.isWildcard segment = false) :
    Plan.Chosen segment name ↔ name = segment := by
  simp [Plan.Chosen, literal]

theorem eq_of_chosen {segments names : List String}
    (literal : ∀ segment ∈ segments, Path.isWildcard segment = false)
    (each : List.Forall₂ Plan.Chosen segments names) : names = segments := by
  induction each with
  | nil => rfl
  | cons first _ ih =>
      obtain ⟨here, later⟩ := List.forall_mem_cons.mp literal
      rw [(chosen_literal here).mp first, ih later]

/-- A question mark stands for names without dots. -/
theorem chosen_any {name : String} (proper : Path.IsName name) :
    Plan.Chosen Name.wildcard name ↔ '.' ∉ name.toList := by
  have single : Glob.ofSegment Name.wildcard = [.wildcard] := rfl
  have wild : Path.isWildcard Name.wildcard = true := rfl
  have filled : name.toList ≠ [] := fun none => proper.filled (String.ext none)
  simp only [Plan.Chosen, wild, if_true, Glob.accepts_iff, single, Glob.matches_wildcard]
  constructor
  · rintro ⟨-, -, plain⟩ dot
    exact absurd (plain '.' dot) (by decide)
  · intro free
    refine ⟨proper, filled, fun c member => ?_⟩
    have dot : c ≠ '.' := fun same => free (same ▸ member)
    have slash : c ≠ '/' := fun same => proper.free (same ▸ member)
    simp [Glob.isPlain, dot, slash]

/-- A name, or a wildcard, that can be put into a template. -/
structure Sought (name : String) : Prop where
  holdable : Path.Holdable name
  free : '\x7b' ∉ name.toList

theorem Literal.sought {name : String} (literal : Literal name) : Sought name :=
  ⟨literal.holdable, literal.free⟩

theorem Sought.wildcard : Sought Name.wildcard := ⟨by decide, by decide⟩

theorem seeks_placed {directory file : String} (placed : kind.place? = some (directory, file))
    (schemaFits : Sought schema) {item : String} (itemFits : Sought item) :
    Seeks kind verb schema (some item) ["schemas", schema, directory, item]
      (FileKind.scriptName file (kind.verbFor verb)) := by
  refine ⟨FileKind.render_placed placed schemaFits.free itemFits.free, ?_,
    FileKind.scriptName_free (FileKind.file_placed placed).1 _,
    fun name => FileKind.scriptName_ends⟩
  simp only [List.forall_mem_cons]
  exact ⟨by decide, schemaFits.holdable, (FileKind.directory_placed placed).1, itemFits.holdable,
    nofun⟩

theorem seeks_type (types : kind = .type ∨ kind = .typePrivileges) (schemaFits : Sought schema)
    {item : String} (itemFits : Sought item) :
    Seeks kind verb schema (some item) ["schemas", schema, "types"]
      (FileKind.scriptName item (kind.verbFor verb)) := by
  refine ⟨FileKind.render_type types schemaFits.free itemFits.free, ?_,
    FileKind.scriptName_free itemFits.holdable.1.free _, fun name => FileKind.scriptName_ends⟩
  simp only [List.forall_mem_cons]
  exact ⟨by decide, schemaFits.holdable, by decide, nofun⟩

theorem seeks_foreignKeys (schemaFits : Sought schema) (item : Option String) :
    Seeks .foreignKeys verb schema item ["schemas", schema, "tables", Name.wildcard]
      (FileKind.scriptName "foreign-keys" verb) := by
  have placed : FileKind.foreignKeys.verbFor verb = verb := rfl
  refine ⟨FileKind.render_foreignKeys item schemaFits.free, ?_,
    FileKind.scriptName_free (by decide) verb, fun name => FileKind.scriptName_ends⟩
  simp only [List.forall_mem_cons]
  exact ⟨by decide, schemaFits.holdable, by decide, by decide, nofun⟩

/-- Where the items of a schema are looked for, they stand in the same schema. -/
theorem chosen_items {directory segment other name : String} (schemaFits : Literal schema)
    (plain : Path.isWildcard directory = false) :
    List.Forall₂ Plan.Chosen ["schemas", schema, directory, segment]
        ["schemas", other, directory, name] ↔
      other = schema ∧ Plan.Chosen segment name := by
  have top : Path.isWildcard "schemas" = false := by decide
  simp [chosen_literal top, chosen_literal schemaFits.literal, chosen_literal plain]

theorem directory_holdable (schemaFits : Literal schema) (items : ItemClass) :
    ∀ name ∈ ["schemas", schema, items.directory], Path.Holdable name := by
  simp only [List.forall_mem_cons]
  refine ⟨by decide, schemaFits.holdable, ?_, nofun⟩
  cases items <;> decide

theorem itemsOf_folders {items : ItemClass} (folders : items ≠ .type) (schema : String)
    (found : List String) : planner.itemsOf items schema found =
      planner.folderNames (Path.ofSegments ["schemas", schema, items.directory]) := by
  have path : s!"schemas/{schema}/{items.directory}" =
      Path.ofSegments ["schemas", schema, items.directory] := by
    apply String.ext
    simp [Path.ofSegments, toString]
  cases items <;> first | contradiction | (unfold itemsOf; rw [← path])

theorem folderNames_ascend (tidy : planner.snapshot.Tidy) {directory : String}
    {names : List String} (listed : planner.folderNames directory = .ofSource (.ok names)) :
    names.Pairwise (· < ·) := by
  unfold folderNames at listed
  cases shown : planner.snapshot.folders directory Glob.anyName <;> rw [shown] at listed <;>
    cases listed
  exact Snapshot.folders_ascend tidy shown

section Folders

variable (tidy : planner.snapshot.Tidy) (orderly : planner.snapshot.Orderly)

include tidy orderly

/-- The folders in a directory can be listed, each once, and none has the name of a pattern. -/
theorem folderNames_spec {directory : String} (within : Plan.Within directory) :
    ∃ names, planner.folderNames directory = .ofSource (.ok names) ∧ names.Nodup ∧
      (∀ name ∈ names, Literal name) ∧ ∀ name,
        planner.snapshot.Shows (Path.ofSegments (Path.steps directory ++ [name])) →
          (name ∈ names ↔ ⟨name, true⟩ ∈ planner.snapshot.held (Path.steps directory) ∧
            Glob.anyName name = true) := by
  obtain ⟨folders, listed⟩ := within.folders planner.snapshot Glob.anyName
  refine ⟨folders.map (·.name), by rw [folderNames, listed]; rfl,
    Snapshot.folders_nodup tidy listed, ?_, ?_⟩
  · intro name member
    exact ⟨tidy.folder_holdable listed member, (Snapshot.mem_folders orderly listed member).2⟩
  · exact fun name shows => Snapshot.mem_folders_iff tidy listed shows

theorem schemas_spec : ∃ names, planner.schemas = .ofSource (.ok names) ∧ names.Nodup ∧
    (∀ name ∈ names, Literal name) ∧ ∀ name,
      planner.snapshot.Shows (Path.ofSegments ["schemas", name]) →
        (name ∈ names ↔ ⟨name, true⟩ ∈ planner.snapshot.held ["schemas"] ∧
          Glob.anyName name = true) := by
  have within : Plan.Within "schemas" := .of_names (by decide : ∀ name ∈ ["schemas"], _)
  exact folderNames_spec tidy orderly within

/-- The items of a schema can be listed, if they are folders. -/
theorem itemsOf_spec {items : ItemClass} (folders : items ≠ .type) (schemaFits : Literal schema)
    (found : List String) : ∃ all, planner.itemsOf items schema found = .ofSource (.ok all) ∧
      ∀ item ∈ all, Literal item := by
  obtain ⟨all, listed, -, fits, -⟩ :=
    folderNames_spec tidy orderly (.of_names (directory_holdable schemaFits items))
  exact ⟨all, (itemsOf_folders folders schema found).trans listed, fits⟩

end Folders

end Planner

end Rollout
