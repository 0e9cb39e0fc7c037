import Rollout.Proofs.Plan.Outer
import Rollout.Proofs.Plan.Found

/-!
Whether a command stays in the schemas that its clause leaves. A schema whose name is no pattern
holds all that is found for it. A name that could be taken for a pattern is put into templates as
it is, and what is found then may lie in other schemas.
-/

namespace Rollout

namespace Path

/-- The path leads through the directory to something in it. -/
def Under (directory path : String) : Prop := ∃ rest, path = directory ++ "/" ++ rest

/-- The directory itself, or what it leads to. -/
def AtOrUnder (directory path : String) : Prop := path = directory ∨ Under directory path

variable {directory path : String}

theorem Under.append (under : Under directory path) (name : String) :
    Under directory (path ++ "/" ++ name) := by
  obtain ⟨rest, rfl⟩ := under
  exact ⟨rest ++ "/" ++ name, by simp [String.append_assoc]⟩

theorem AtOrUnder.append (within : AtOrUnder directory path) (name : String) :
    Under directory (path ++ "/" ++ name) := by
  rcases within with rfl | under
  · exact ⟨name, rfl⟩
  · exact under.append name

/-- Slashes at the end are not what a path leads to. -/
theorem AtOrUnder.dropSlashes (ends : endsInSlash directory = false)
    (within : AtOrUnder directory path) : AtOrUnder directory (Path.dropSlashes path) := by
  rcases within with rfl | ⟨rest, rfl⟩
  · exact .inl (dropSlashes_of_ends ends)
  · have letters : (directory ++ "/" ++ rest).toList = directory.toList ++ '/' :: rest.toList := by
      simp
    have whole : Path.dropSlashes directory = directory := dropSlashes_of_ends ends
    unfold Path.dropSlashes at whole ⊢
    -- if nothing but slashes is below the directory, what is left is the directory
    rw [letters, List.reverse_append, List.reverse_cons, List.append_assoc, List.dropWhile_append]
    split
    · left
      simpa using whole
    · rename_i filled
      right
      exact ⟨String.ofList (rest.toList.reverse.dropWhile (· == '/')).reverse, by
        apply String.ext
        simp⟩

theorem AtOrUnder.join (filled : directory ≠ "") (here : directory ≠ ".")
    (ends : endsInSlash directory = false) (within : AtOrUnder directory path) (name : String) :
    Under directory (Path.join path name) := by
  have dropped := within.dropSlashes ends
  have proper : Path.dropSlashes path ≠ "" ∧ Path.dropSlashes path ≠ "." := by
    rcases dropped with same | ⟨rest, same⟩
    · rw [same]
      exact ⟨filled, here⟩
    · rw [same]
      refine ⟨by simp, fun alone => ?_⟩
      have slash := congrArg (fun path => '/' ∈ path.toList) alone
      simp at slash
  unfold Path.join
  dsimp only
  rw [if_neg (by simp [proper])]
  exact dropped.append name

end Path

namespace Plan

variable {snapshot : Snapshot} {directory : String}

section Proper

variable (filled : directory ≠ "") (here : directory ≠ ".")
  (ends : Path.endsInSlash directory = false)

include filled here ends

/-- Remaining segments lead on from where they are. -/
theorem expandFrom_within {segments : List String} {start last : String}
    {directories : List String} (within : Path.AtOrUnder directory start)
    (expanded : expandFrom snapshot start segments = .ok directories)
    (member : last ∈ directories) : Path.AtOrUnder directory last := by
  induction segments generalizing start directories with
  | nil =>
      cases expanded
      rwa [List.mem_singleton.mp member]
  | cons segment rest ih =>
      unfold expandFrom at expanded
      split at expanded
      · split at expanded
        · cases expanded
        · obtain ⟨name, -, further, went, among⟩ := mem_gather expanded member
          exact ih (.inr (within.join filled here ends name)) went among
      · have inside : start ≠ "" := by
          rcases within with rfl | ⟨rest, rfl⟩
          · exact filled
          · simp
        dsimp only at expanded
        rw [if_neg inside] at expanded
        exact ih (.inr (within.append segment)) expanded member

end Proper

/-- The directory of a schema. -/
def schemaDirectory (schema : String) : String := "schemas/" ++ schema

section Schema

variable {schema : String} (proper : Path.IsName schema)

include proper

theorem schemaDirectory_segments :
    Path.segments (schemaDirectory schema) = ["schemas", schema] := by
  have split : schemaDirectory schema = "schemas" ++ "/" ++ schema := rfl
  rw [split, Path.segments_append, Path.segments_of_free proper.free]
  rfl

theorem schemaDirectory_ends : Path.endsInSlash (schemaDirectory schema) = false := by
  have split : schemaDirectory schema = "schemas" ++ "/" ++ schema := rfl
  rw [split]
  exact Path.endsInSlash_append _ proper.filled proper.free

omit proper in
theorem schemaDirectory_proper (schema : String) :
    schemaDirectory schema ≠ "" ∧ schemaDirectory schema ≠ "." := by
  have long : 7 < (schemaDirectory schema).toList.length := by
    simp [schemaDirectory]
  constructor <;> intro same <;> rw [same] at long <;> simp at long

/-- Two schemas hold nothing in common. -/
theorem under_unique {other path : String} (otherProper : Path.IsName other)
    (here : Path.Under (schemaDirectory schema) path)
    (there : Path.Under (schemaDirectory other) path) :
    schema = other := by
  obtain ⟨rest, rfl⟩ := here
  obtain ⟨more, same⟩ := there
  have segments := congrArg Path.segments same
  rw [Path.segments_append, Path.segments_append, schemaDirectory_segments proper,
    schemaDirectory_segments otherProper] at segments
  simp only [List.cons_append, List.nil_append, List.cons.injEq] at segments
  exact segments.2.1

omit proper in
theorem splitFile_atOrUnder {path : String} (under : Path.Under (schemaDirectory schema) path) :
    Path.AtOrUnder (schemaDirectory schema) (Path.splitFile path).1 := by
  obtain ⟨rest, rfl⟩ := under
  obtain ⟨free, whole | alone⟩ := Path.splitFile_cases rest
  · right
    refine ⟨(Path.splitFile rest).1, ?_⟩
    have again : schemaDirectory schema ++ "/" ++ rest =
        schemaDirectory schema ++ "/" ++ (Path.splitFile rest).1 ++ "/" ++
          (Path.splitFile rest).2 := by
      conv_lhs => rw [whole]
      simp [String.append_assoc]
    rw [again, Path.splitFile_append _ free]
  · left
    rw [alone] at free
    rw [Path.splitFile_append _ free]

variable (literal : Path.isWildcard schema = false)

include literal

theorem expandDirectories_atOrUnder {pattern last : String} {directories : List String}
    (within : Path.AtOrUnder (schemaDirectory schema) pattern)
    (expanded : expandDirectories snapshot pattern = .ok directories)
    (member : last ∈ directories) : Path.AtOrUnder (schemaDirectory schema) last := by
  have shape : ∃ more, (Path.segments pattern).filter (· != "") = "schemas" :: schema :: more := by
    have inside : (schema != "") = true := by simpa using proper.filled
    rcases within with rfl | ⟨rest, rfl⟩
    · refine ⟨[], ?_⟩
      rw [schemaDirectory_segments proper]
      simp [inside]
    · refine ⟨(Path.segments rest).filter (· != ""), ?_⟩
      rw [Path.segments_append, schemaDirectory_segments proper]
      simp [inside]
  obtain ⟨more, segments⟩ := shape
  -- the first two segments are no patterns, so the way starts at the directory of the schema
  unfold expandDirectories at expanded
  simp only [segments] at expanded
  split at expanded
  · obtain ⟨filled, here⟩ := schemaDirectory_proper schema
    have top : Path.isWildcard "schemas" = false := by decide
    rw [expandFrom_literal top, expandFrom_literal literal] at expanded
    exact expandFrom_within filled here (schemaDirectory_ends proper) (.inl rfl) expanded member
  · cases expanded
    rwa [List.mem_singleton.mp member]

/-- What is found for a schema whose name is no pattern lies in the schema. -/
theorem expand_under {pattern path : String} {paths : List String}
    (under : Path.Under (schemaDirectory schema) pattern)
    (expanded : expand snapshot pattern = .ok paths) (member : path ∈ paths) :
    Path.Under (schemaDirectory schema) path := by
  obtain ⟨directories, directory, name, reached, among, rfl, -, -⟩ := mem_expand expanded member
  obtain ⟨filled, here⟩ := schemaDirectory_proper schema
  exact (expandDirectories_atOrUnder proper literal (splitFile_atOrUnder under) reached
    among).join filled here (schemaDirectory_ends proper) name

end Schema

end Plan

namespace FileKind

variable {kind : FileKind}

/-- Does the template lead into a schema? -/
def isInSchema : FileKind → Bool
  | database | databasePrivileges | roles | extensions | databaseSeeds => false
  | _ => true

theorem template_isInSchema (inSchema : kind.isInSchema = true) :
    ∃ tail, kind.template.toList = "schemas/".toList ++ (Placeholder.schema.token ++ '/' :: tail) ∧
      Text.occurs Placeholder.schema.token ('/' :: tail) = false := by
  refine ⟨kind.template.toList.drop "schemas/\x7bschema\x7d/".length, ?_⟩
  cases kind <;> first | contradiction | exact ⟨rfl, by decide⟩

/-- Filled in with a name without braces, such a template leads into the schema of that name. -/
theorem render_under (inSchema : kind.isInSchema = true) {verb : Option Verb}
    {schema pattern : String} {item : Option String} (free : '\x7b' ∉ schema.toList)
    (rendered : kind.render verb (some schema) item = .ok pattern) :
    Path.Under (Plan.schemaDirectory schema) pattern := by
  obtain ⟨tail, shape, absent⟩ := template_isInSchema inSchema
  have unbraced : '\x7b' ∉ (Plan.schemaDirectory schema ++ "/").toList := by
    simp [Plan.schemaDirectory, free]
  have first : fill kind.template .schema (some schema) kind.template.toList =
      .ok ((Plan.schemaDirectory schema ++ "/").toList ++ tail) := by
    rw [shape, fill_place (by decide) absent]
    simp [Plan.schemaDirectory]
  simp only [render, first] at rendered
  split at rendered
  · cases rendered
  · rename_i second filled
    have begins := fill_starts unbraced (List.prefix_append _ tail) filled
    obtain ⟨third, last, rfl⟩ := Outcome.map_eq_ok.mp rendered
    obtain ⟨rest, rfl⟩ := fill_starts unbraced begins last
    exact ⟨String.ofList rest, by simp [String.append_assoc]⟩

theorem isInSchema_kinds {items : ItemClass} : ∀ kind ∈ items.kinds, kind.isInSchema = true := by
  cases items <;> decide

end FileKind

theorem Verb.eq_name_of_ofName? {name : String} {verb : Verb}
    (known : Verb.ofName? name = some verb) : name = verb.name := by
  unfold Verb.ofName? at known
  split at known <;> cases known <;> rfl

theorem Step.file?_of_isList {step : Step} (list : step.isList = true) : step.file? = none := by
  cases step <;> first | rfl | cases list

namespace Command

/-- Does a verb with this object go through the schemas of the tree that its clause leaves? -/
def goesThrough (root : String) (object : Option String) : Bool :=
  if root = "seed" then object == some "schemas" || object == some "tables"
  else (Verb.ofName? root).isSome && (object == some "schemas" ||
    (object.bind ItemClass.ofObject?).any (·.2))

/-- With a clause on schemas, a command goes through those that the clause leaves, unless it lists
what is in the database. -/
theorem builtin_goesThrough : ∀ trail ∈ Grammar.builtin.trails [], trail.2.mayEnd = true →
    ((Match.objectOf [] trail.1).bind fun (_, after) => Clause.ofKeywords? after) ∈
      [some .within, some .except, some .exceptIn] →
    (trail.1.map (·.name)).reverse.headD "" = "list" ∨
      goesThrough ((trail.1.map (·.name)).reverse.headD "")
        ((Match.objectOf [] trail.1).map (·.1)) = true := by
  decide +kernel

theorem goesThrough_of_parse {text : String} {commands : List Command}
    (parsed : parse Grammar.builtin text = .ok commands) {command : Command}
    (member : command ∈ commands)
    (clause : command.clause ∈ [some .within, some .except, some .exceptIn]) :
    command.root = "list" ∨ goesThrough command.root command.object = true := by
  obtain ⟨trail, led, ends, spells⟩ := parse_spells parsed member
  rw [spells.root, spells.object]
  rw [spells.clause] at clause
  exact builtin_goesThrough trail led ends clause

end Command

namespace Planner

open Draft (Outer)
open Plan (schemaDirectory)

variable {planner : Planner} {kind : FileKind} {schema : String}

/-- If the event is about a file, the file is in the schema; or the name of the schema could be
taken for a pattern. -/
def StaysIn (schema : String) (event : Draft.Event) : Prop :=
  ∀ step file, event = .step step → step.file? = some file → Path.isWildcard schema = false →
    Path.Under (schemaDirectory schema) file.path

theorem StaysIn.plain {event : Draft.Event}
    (plain : ∀ step, event = .step step → step.file? = none) : StaysIn schema event := by
  intro step file same about
  rw [plain step same] at about
  cases about

theorem StaysIn.of_under {step : Step} {path : String}
    (about : step.file? = some (planner.file path))
    (under : Path.isWildcard schema = false → Path.Under (schemaDirectory schema) path) :
    StaysIn schema (.step step) := by
  rintro _ file ⟨⟩ same literal
  rw [about] at same
  cases same
  exact under literal

section Schema

variable (proper : Path.IsName schema)

include proper

theorem resolve_under (inSchema : kind.isInSchema = true) {verb : Option Verb}
    {item : Option String} {paths : List String}
    (found : (planner.resolve kind verb (some schema) item).outcome = .ok paths) :
    ∀ path ∈ paths, Path.isWildcard schema = false → Path.Under (schemaDirectory schema) path := by
  intro path member literal
  unfold resolve at found
  dsimp only at found
  split at found
  · cases found
  · rename_i pattern rendered
    simp only [Draft.bind_eq] at found
    obtain ⟨all, expanded, rest, -⟩ := Draft.andThen_ok found
    cases rest
    have free := (Path.not_isWildcard_iff.mp literal).2.2
    cases expansion : Plan.expand planner.snapshot pattern with
    | error fault =>
        rw [expansion] at expanded
        cases expanded
    | ok files =>
        rw [expansion] at expanded
        cases expanded
        exact Plan.expand_under proper literal (FileKind.render_under inSchema free rendered)
          expansion member

omit proper in
theorem resolve_outer (kind : FileKind) (verb : Option Verb) (schema : String)
    (item : Option String) :
    Outer (StaysIn schema) (planner.resolve kind verb (some schema) item) := by
  unfold resolve
  dsimp only
  split
  · exact .silent rfl
  · simp only [Draft.bind_eq]
    exact .andThen (.silent rfl) fun _ _ =>
      .andThen (.single (.plain nofun) rfl rfl) fun _ _ => .silent rfl

theorem emitFound_outer (inSchema : kind.isInSchema = true) (verb : Verb)
    (item : Option String) :
    Outer (StaysIn schema) (planner.emitFound kind verb (some schema) item) := by
  unfold emitFound
  simp only [Draft.bind_eq]
  refine .andThen (resolve_outer kind (some verb) schema item) fun paths found => ?_
  refine .andThen (.each fun path member => ?_) fun _ _ => .silent rfl
  exact .single (.of_under rfl (resolve_under proper inSchema found path member)) rfl rfl

theorem emit_outer (inSchema : kind.isInSchema = true) (verb : Verb) (item : Option String) :
    Outer (StaysIn schema) (planner.emit kind verb (some schema) item) :=
  .andThen (emitFound_outer proper inSchema verb item) fun _ _ => .silent rfl

theorem attach_outer (items : ItemClass) (item : String) :
    Outer (StaysIn schema) (planner.attach items schema item) :=
  .each fun kind member => emit_outer proper
    (FileKind.isInSchema_kinds kind (ItemClass.attachment_mem member)) .create (some item)

theorem planSchemaItems_outer (verb : Verb) (items : ItemClass) :
    Outer (StaysIn schema) (planner.planSchemaItems verb items schema) := by
  have has {kind : FileKind} (member : kind ∈ items.kinds) : kind.isInSchema = true :=
    FileKind.isInSchema_kinds kind member
  unfold planSchemaItems
  split
  · exact emit_outer proper (has (by simp [ItemClass.kinds])) verb _
  · refine .andThen (emitFound_outer proper (has items.primary_mem) verb _) fun found _ => ?_
    split
    · refine .andThen (.silent ?_) fun names _ => .each fun item _ => attach_outer proper items item
      cases items <;> rfl
    · exact .silent rfl

variable {inlined : FileRef → Draft Unit}
  (inlines : ∀ (kind : Draft.Event → Prop) (file : FileRef), kind (.step (.enterFile file)) →
    Outer kind (inlined file))

include inlines

omit proper in
theorem planSeedFile_outer {target : Option (String × String)} {path : String}
    (under : Path.isWildcard schema = false → Path.Under (schemaDirectory schema) path) :
    Outer (StaysIn schema) (planner.planSeedFile inlined target path) := by
  unfold planSeedFile
  dsimp only
  split
  · exact .single (.of_under rfl under) rfl rfl
  · exact .single (.of_under rfl under) rfl rfl
  · exact .single (.of_under rfl under) rfl rfl
  · exact inlines _ _ (.of_under rfl under)
  · exact .silent rfl

theorem planSchemaSeeds_outer (command : Command) :
    Outer (StaysIn schema) (planner.planSchemaSeeds inlined command schema) := by
  unfold planSchemaSeeds
  simp only [Draft.bind_eq]
  refine .andThen (resolve_outer _ _ _ _) fun files found => .each fun path member => ?_
  exact planSeedFile_outer inlines
    (resolve_under proper rfl found path (Command.mem_selectSeeds member))

theorem planTableSeeds_outer {item : Option String} :
    Outer (StaysIn schema) ((planner.resolve .tableSeeds none (some schema) item).andThen
      (planner.planTableSeeds inlined)) :=
  .andThen (resolve_outer _ _ _ _) fun _ found => .each fun path member =>
    planSeedFile_outer inlines (resolve_under proper rfl found path member)

end Schema

/-- There is a folder of this name for a schema, by the listing of the tree. -/
def HasSchema (planner : Planner) (schema : String) : Prop :=
  ∃ folders, planner.snapshot.folders "schemas" Glob.anyName = .ok folders ∧
    schema ∈ folders.map (·.name)

/-- The schema is one of those that the clause leaves. -/
structure Leaves (planner : Planner) (command : Command) (schema : String) : Prop where
  has : planner.HasSchema schema
  kept : command.keeps schema = true
  proper : Path.IsName schema

/-- If the event is about a file, it stays in one of the schemas that the clause leaves. -/
def Stays (planner : Planner) (command : Command) (event : Draft.Event) : Prop :=
  ∀ step file, event = .step step → step.file? = some file →
    ∃ schema, planner.Leaves command schema ∧ StaysIn schema event

section Stays

variable {command : Command}

theorem Leaves.stays {draft : Draft Unit} (leaves : planner.Leaves command schema)
    (outer : Outer (StaysIn schema) draft) : Outer (planner.Stays command) draft :=
  outer.weaken fun _ held _ _ _ _ => ⟨schema, leaves, held⟩

theorem schemas_outer (tidy : planner.snapshot.Tidy) {draft : List String → Draft Unit}
    (outer : ∀ all, (∀ schema ∈ command.filterSchemas all, planner.Leaves command schema) →
      Outer (planner.Stays command) (draft all)) :
    Outer (planner.Stays command) (planner.schemas.andThen draft) := by
  refine .andThen (.silent rfl) fun all listed => outer all fun schema member => ?_
  unfold schemas folderNames at listed
  cases folders : planner.snapshot.folders "schemas" Glob.anyName with
  | error fault =>
      rw [folders] at listed
      cases listed
  | ok found =>
      rw [folders] at listed
      cases listed
      rw [Command.filterSchemas_eq, List.mem_filter] at member
      exact ⟨⟨found, folders, member.1⟩, member.2, (tidy.folder_holdable folders member.1).1⟩

theorem planSchemas_outer (verb : Verb) {among : List String}
    (leaves : ∀ schema ∈ among, planner.Leaves command schema) :
    Outer (planner.Stays command) (planner.planSchemas verb among) := by
  refine .each fun schema member => (leaves schema member).stays ?_
  have proper := (leaves schema member).proper
  split
  · exact emit_outer proper rfl verb none
  · refine .andThen (emitFound_outer proper rfl verb none) fun created _ => ?_
    split
    · exact emit_outer proper rfl verb none
    · exact .silent rfl

theorem planForeignKeys_outer (verb : Verb) {among : List String}
    (leaves : ∀ schema ∈ among, planner.Leaves command schema) :
    Outer (planner.Stays command) (planner.planForeignKeys verb among) :=
  .each fun schema member => (leaves schema member).stays
    (emit_outer (leaves schema member).proper rfl verb none)

theorem planAllItems_outer (tidy : planner.snapshot.Tidy) (verb : Verb) (items : ItemClass) :
    Outer (planner.Stays command) (planner.planAllItems command verb items) := by
  refine schemas_outer tidy fun all leaves => ?_
  have keys := planForeignKeys_outer verb leaves
  have each : Outer (planner.Stays command)
      (Draft.each (planner.planSchemaItems verb items) (command.filterSchemas all)) :=
    .each fun schema member => (leaves schema member).stays
      (planSchemaItems_outer (leaves schema member).proper verb items)
  have afterKeys : Outer (planner.Stays command) (if items = .table ∧ verb = .create then
      planner.planForeignKeys verb (command.filterSchemas all) else pure ()) := by
    split
    · exact keys
    · exact .silent rfl
  dsimp only
  split
  · exact .andThen keys fun _ _ => .andThen each fun _ _ => afterKeys
  · exact .andThen each fun _ _ => afterKeys

theorem planSeeds_outer (tidy : planner.snapshot.Tidy) {inlined : FileRef → Draft Unit}
    (inlines : ∀ (kind : Draft.Event → Prop) (file : FileRef), kind (.step (.enterFile file)) →
      Outer kind (inlined file))
    (named : command.object = some "schemas" ∨ command.object = some "tables") :
    Outer (planner.Stays command) (planner.planSeeds inlined command) := by
  unfold planSeeds
  rcases named with named | named <;> rw [named]
  · exact schemas_outer tidy fun all leaves => .each fun schema member =>
      (leaves schema member).stays
        (planSchemaSeeds_outer (leaves schema member).proper inlines command)
  · exact schemas_outer tidy fun all leaves => .each fun schema member =>
      (leaves schema member).stays
        (planTableSeeds_outer (leaves schema member).proper inlines)

theorem planObjects_outer (tidy : planner.snapshot.Tidy) (verb : Verb)
    (named : command.object = some "schemas" ∨
      (command.object.bind ItemClass.ofObject?).any (·.2) = true) :
    Outer (planner.Stays command) (planner.planObjects command verb) := by
  rcases named with named | plural
  · unfold planObjects
    rw [named]
    exact schemas_outer tidy fun all leaves => planSchemas_outer verb leaves
  · cases known : command.object.bind ItemClass.ofObject? with
    | none =>
        rw [known] at plural
        cases plural
    | some found =>
        obtain ⟨items, _⟩ := found
        rw [known] at plural
        cases plural
        obtain ⟨object, named, known⟩ := Option.bind_eq_some_iff.mp known
        rw [planObjects_items named known, if_pos rfl]
        exact planAllItems_outer tidy verb items

theorem plan_outer (tidy : planner.snapshot.Tidy)
    (goes : Command.goesThrough command.root command.object = true) :
    Outer (planner.Stays command) (planner.plan command) := by
  have quiet : planner.Stays command (.step (.runCommand command.text)) := by
    rintro _ file ⟨⟩ about
    cases about
  unfold Command.goesThrough at goes
  split at goes
  · rename_i root
    have inlines : ∀ (kind : Draft.Event → Prop) (file : FileRef),
        kind (.step (.enterFile file)) → Outer kind (planner.inlineFile depthLimit file) :=
      fun kind file held => inlineFile_outer held depthLimit
    unfold plan planWith
    rw [root]
    exact withSteps_outer (planSeeds_outer tidy inlines (by simpa using goes)) quiet
  · obtain ⟨verbal, named⟩ := Bool.and_eq_true_iff.mp goes
    obtain ⟨verb, root⟩ := Option.isSome_iff_exists.mp verbal
    rw [plan, planWith_verb _ (Verb.eq_name_of_ofName? root)]
    exact withSteps_outer (planObjects_outer tidy verb (by simpa using named)) quiet

theorem plan_stays (tidy : planner.snapshot.Tidy) {text : String} {commands : List Command}
    (parsed : Command.parse Grammar.builtin text = .ok commands) (member : command ∈ commands)
    (clause : command.clause ∈ [some .within, some .except, some .exceptIn]) :
    Outer (planner.Stays command) (planner.plan command) := by
  rcases Command.goesThrough_of_parse parsed member clause with root | goes
  · have only : planner.plan command = planList command := by
      unfold plan planWith
      rw [root]
      rfl
    rw [only]
    unfold planList
    split
    · exact .single nofun rfl rfl
    · exact .silent rfl
  · exact plan_outer tidy goes

end Stays

/-- Outside of files of commands, a command with a clause on schemas stays in those that the clause
leaves. If it lists them it always does. If it excludes them, something in an excluded schema is
found only when another schema has a name that could be taken for a pattern. -/
theorem plan_confined (tidy : planner.snapshot.Tidy) {text : String} {commands : List Command}
    (parsed : Command.parse Grammar.builtin text = .ok commands) {command : Command}
    (member : command ∈ commands) {State : Type} (database : Option (Database State))
    (state : State) {before after : List Step} {step : Step}
    (whole : ((planner.plan command).settle database state).1.steps = before ++ step :: after)
    (outside : Step.Outside before) {file : FileRef} (about : step.file? = some file) :
    (command.clause = some .within →
        ∃ schema ∈ command.schemaNames, Path.Under (schemaDirectory schema) file.path) ∧
      (command.clause = some .except ∨ command.clause = some .exceptIn →
        ∀ schema ∈ command.schemaNames, Path.Under (schemaDirectory schema) file.path →
          ∃ other, planner.HasSchema other ∧ other ∉ command.schemaNames ∧
            Path.isWildcard other = true) := by
  have understood := Command.understood_of_parse parsed member
  have identifier {schema : String} (listed : schema ∈ command.schemaNames) :=
    understood.schemaNames_isIdentifier listed
  obtain ⟨earlier, event, later, events, same, entered, left⟩ := Plan.settle_split whole
  have event_eq : event = .step step := by
    refine same.resolve_right fun list => ?_
    rw [Step.file?_of_isList list] at about
    cases about
  subst event_eq
  have stays (clause : command.clause ∈ [some .within, some .except, some .exceptIn]) :
      ∃ schema, planner.Leaves command schema ∧ (Path.isWildcard schema = false →
        Path.Under (schemaDirectory schema) file.path) := by
    obtain ⟨chosen, leaves, stays⟩ := (plan_stays tidy parsed member clause).outer earlier _ later
      events (by rw [entered, left]; exact outside) step file rfl about
    exact ⟨chosen, leaves, stays step file rfl about⟩
  constructor
  · intro clause
    obtain ⟨chosen, leaves, stays⟩ := stays (by simp [clause])
    have listed : chosen ∈ command.schemaNames := by
      simpa [Command.keeps, clause] using leaves.kept
    exact ⟨chosen, listed, stays (Path.not_isWildcard_of_isIdentifier (identifier listed))⟩
  · intro clause schema excluded under
    obtain ⟨chosen, leaves, stays⟩ := stays
      (by rcases clause with clause | clause <;> simp [clause])
    have other : chosen ∉ command.schemaNames := by
      rcases clause with clause | clause <;>
        simpa [Command.keeps, clause, Clause.isExclusion] using leaves.kept
    refine ⟨chosen, leaves.has, other, ?_⟩
    -- what is found for a name that is no pattern lies in one schema only
    by_contra literal
    have there := stays (by simpa using literal)
    have proper := Path.IsName.of_part (.inr (identifier excluded))
    rw [Plan.under_unique leaves.proper proper there under] at other
    exact other excluded

/-- A schema with a table, and one with the name of the first in braces. -/
def braced : Planner where
  grammar := Grammar.builtin
  snapshot := .disk ⟨".", .node (.folder (.folder "schemas"
    (.folder "a" (.folder "tables" (.folder "t"
        (.file "table.drop.sql" (.text "drop table t") .nil) .nil) .nil)
      (.folder "\x7ba\x7d" (.file "x.sql" (.text "select 1") .nil) .nil)) .nil))⟩
  ref := none
  autoTransaction := true

def dropTables (path : List String) (clause : Clause) (text : String) : Command :=
  ⟨"drop", path, some "tables", some clause, [⟨"schema-names", .list ["a"]⟩], none, text, 1⟩

def dropTablesIn : Command := dropTables ["drop", "tables", "in"] .within "drop tables in a"

def dropTablesExcept : Command :=
  dropTables ["drop", "tables", "except", "in"] .exceptIn "drop tables except in a"

theorem braced_planned :
    let plan := ((braced.plan dropTablesExcept).settle (none : Option (Database Unit)) ()).1
    plan.outcome = .ok () ∧ plan.steps = [.runCommand "drop tables except in a",
      .execFile ⟨"schemas/a/tables/t/table.drop.sql", none⟩] := by
  decide +kernel

theorem plan_confined_braced :
    Command.parse Grammar.builtin "drop tables in a" = .ok [dropTablesIn] ∧
      ((braced.plan dropTablesIn).settle (none : Option (Database Unit)) ()).1.steps =
        [.runCommand "drop tables in a"] ++
          [.execFile ⟨"schemas/a/tables/t/table.drop.sql", none⟩] ∧
      ∃ schema ∈ ["a"],
        Path.Under (schemaDirectory schema) "schemas/a/tables/t/table.drop.sql" := by
  have parsed : Command.parse Grammar.builtin "drop tables in a" = .ok [dropTablesIn] := by
    decide +kernel
  have whole : ((braced.plan dropTablesIn).settle (none : Option (Database Unit)) ()).1.steps =
      [.runCommand "drop tables in a"] ++
        [.execFile ⟨"schemas/a/tables/t/table.drop.sql", none⟩] := by
    decide +kernel
  have tidy : braced.snapshot.Tidy := by
    rintro folder ⟨⟩
    decide
  exact ⟨parsed, whole, (plan_confined tidy parsed List.mem_cons_self
    (none : Option (Database Unit)) () whole rfl rfl).1 rfl⟩

/-- The name in braces stands for the other schema, and does not stand for itself. A table is
dropped in a schema that is excluded. -/
theorem plan_reaches_excluded :
    Command.parse Grammar.builtin "drop tables except in a" = .ok [dropTablesExcept] ∧
      braced.snapshot.Tidy ∧ (Glob.ofSegment "\x7ba\x7d").accepts "\x7ba\x7d" = false ∧
      "a" ∈ dropTablesExcept.schemaNames ∧
      Path.Under (schemaDirectory "a") "schemas/a/tables/t/table.drop.sql" ∧
      let plan := ((braced.plan dropTablesExcept).settle (none : Option (Database Unit)) ()).1
      plan.outcome = .ok () ∧
        .execFile ⟨"schemas/a/tables/t/table.drop.sql", none⟩ ∈ plan.steps := by
  obtain ⟨ended, steps⟩ := braced_planned
  refine ⟨by decide +kernel, ?_, by decide, by decide, ⟨"tables/t/table.drop.sql", rfl⟩, ended, ?_⟩
  · rintro folder ⟨⟩
    decide
  · rw [steps]
    decide

end Planner

end Rollout
