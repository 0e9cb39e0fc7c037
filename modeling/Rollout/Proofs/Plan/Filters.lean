import Mathlib.Data.List.Perm.Basic
import Rollout.Proofs.Plan.Singular

/-!
Clauses that filter. What is planned for the schemas in a list and for all others is together what
is planned for all schemas; so it is with the seed files of a list of names and the others.
-/

namespace Rollout

/-- A part of a list and the others, each in the order of the list. -/
structure Partitions {Value : Type} (all kept left : List Value) : Prop where
  together : (kept ++ left).Perm all
  kept : kept.Sublist all
  left : left.Sublist all

namespace Partitions

variable {Value Result : Type} {all kept left more keptMore leftMore : List Value}

theorem nil : Partitions ([] : List Value) [] [] := ⟨.nil, .slnil, .slnil⟩

theorem append (first : Partitions all kept left) (second : Partitions more keptMore leftMore) :
    Partitions (all ++ more) (kept ++ keptMore) (left ++ leftMore) := by
  refine ⟨?_, first.kept.append second.kept, first.left.append second.left⟩
  have swapped : ((kept ++ keptMore) ++ (left ++ leftMore)).Perm
      ((kept ++ left) ++ (keptMore ++ leftMore)) := by
    simp only [List.append_assoc]
    exact (List.perm_append_comm_assoc _ _ _).append_left kept
  exact swapped.trans (first.together.append second.together)

theorem filter (keep : Value → Bool) (list : List Value) :
    Partitions list (list.filter keep) (list.filter (!keep ·)) :=
  ⟨List.filter_append_perm keep list, List.filter_sublist, List.filter_sublist⟩

theorem sublist_flatMap (make : Value → List Result) {part list : List Value}
    (inside : part.Sublist list) : (part.flatMap make).Sublist (list.flatMap make) := by
  induction inside with
  | slnil => exact .slnil
  | cons value _ ih => exact ih.trans (List.sublist_append_right _ _)
  | cons_cons value _ ih => exact (List.Sublist.refl _).append ih

theorem flatMap (partitions : Partitions all kept left) (make : Value → List Result) :
    Partitions (all.flatMap make) (kept.flatMap make) (left.flatMap make) := by
  refine ⟨?_, sublist_flatMap make partitions.kept, sublist_flatMap make partitions.left⟩
  rw [← List.flatMap_append]
  exact partitions.together.flatMap_right make

end Partitions

/-- Values grouped by the keys in a list, and those with other keys, are all the values. -/
theorem Plan.group_perm {Value Key : Type} [DecidableEq Key] (key : Value → Key) {keys : List Key}
    (distinct : keys.Nodup) (list : List Value) :
    ((keys.flatMap fun name => list.filter fun value => key value == name) ++
      list.filter fun value => !keys.contains (key value)).Perm list := by
  induction keys generalizing list with
  | nil => simp
  | cons name rest ih =>
      obtain ⟨apart, distinct⟩ := List.nodup_cons.mp distinct
      -- what is left of the list without the first key goes on to the others
      have groups : (rest.flatMap fun other => list.filter fun value => key value == other) =
          rest.flatMap fun other => (list.filter fun value => !key value == name).filter
            fun value => key value == other := by
        refine List.flatMap_congr fun other member => ?_
        have differs : other ≠ name := fun same => apart (same ▸ member)
        rw [List.filter_filter]
        refine List.filter_congr fun value _ => ?_
        by_cases same : key value = other <;> simp [same, differs]
      have others : (list.filter fun value => !(name :: rest).contains (key value)) =
          (list.filter fun value => !key value == name).filter
            fun value => !rest.contains (key value) := by
        rw [List.filter_filter]
        refine List.filter_congr fun value _ => ?_
        rw [Bool.eq_iff_iff]
        simp [and_comm]
      rw [List.flatMap_cons, List.append_assoc, groups, others]
      exact ((ih distinct _).append_left _).trans (List.filter_append_perm _ list)

namespace Command

/-- The command plans for all schemas; with a clause, for some of them. -/
inductive TakesFilter (command : Command) : Prop where
  | items {verb : Verb} {items : ItemClass} {object : String} (root : command.root = verb.name)
      (named : command.object = some object)
      (plural : ItemClass.ofObject? object = some (items, true))
  | seeds (root : command.root = "seed") (named : command.object = some "tables")

/-- The command seeds the database, one schema, or the tables of one name. -/
inductive SeedsOne (command : Command) : Prop where
  | database (root : command.root = "seed") (named : command.object = some "database")
  | schema {schema : String} (root : command.root = "seed") (named : command.object = some "schema")
      (only : command.schemaNames = [schema]) (identifier : Name.isIdentifier schema = true)
  | table {name : String} (root : command.root = "seed") (named : command.object = some "table")
      (only : command.itemNames = [name]) (qualified : Name.IsQualified name)

/-- The command is another one with a clause. -/
structure Narrows (command whole : Command) (clause : Clause) : Prop where
  root : command.root = whole.root
  object : command.object = whole.object
  clause : command.clause = some clause

end Command

namespace Planner

variable {planner : Planner} {verb : Verb} {items : ItemClass} {schema : String}
  {schemas kept left : List String}

/-- What is planned for all items of some schemas is divided as the schemas are. -/
theorem allSteps_partitions (partitions : Partitions schemas kept left) :
    Partitions (planner.allSteps verb items schemas) (planner.allSteps verb items kept)
      (planner.allSteps verb items left) := by
  have keys : Partitions (planner.keySteps verb schemas) (planner.keySteps verb kept)
      (planner.keySteps verb left) := partitions.flatMap _
  have each := partitions.flatMap (planner.itemSteps verb items)
  -- foreign keys stand at one end at most, and are divided there
  unfold allSteps
  split
  · exact keys.append (each.append (by split <;> first | exact keys | exact .nil))
  · exact Partitions.nil.append (each.append (by split <;> first | exact keys | exact .nil))

section Seeds

variable {inlined : FileRef → Draft Unit} {kind : FileKind} {item : Option String}
  {pattern path : String} {files : List String} {command : Command}

theorem resolve_seeds (tidy : planner.snapshot.Tidy) (orderly : planner.snapshot.Orderly)
    {schema : Option String} {segments : List String} {file : String}
    (rendered : kind.render none schema item = .ok (Path.ofSegments (segments ++ [file])))
    (holdable : ∀ segment ∈ segments, Path.Holdable segment) (free : '/' ∉ file.toList) :
    ∃ files, Plan.expand planner.snapshot (Path.ofSegments (segments ++ [file])) = .ok files ∧
      planner.resolve kind none schema item =
        ⟨[.tried (Path.ofSegments (segments ++ [file]))], .ok files⟩ := by
  obtain ⟨files, expanded⟩ :=
    Plan.expand_ok tidy orderly (Plan.straight_ofSegments holdable free)
  have none : (if kind.isPrivileges then (none : Option Verb).map Verb.privileges else none) =
      none := by
    split <;> rfl
  refine ⟨files, expanded, ?_⟩
  simp only [resolve, none, rendered, expanded]
  rfl

theorem schemaSeeds_holdable (schemaFits : Sought schema) :
    ∀ segment ∈ ["schemas", schema, "seeds"], Path.Holdable segment := by
  simp only [List.forall_mem_cons]
  exact ⟨by decide, schemaFits.holdable, by decide, nofun⟩

theorem tableSeeds_holdable {item : String} (schemaFits : Sought schema)
    (itemFits : Sought item) :
    ∀ segment ∈ ["schemas", schema, "tables", item, "seeds"], Path.Holdable segment := by
  simp only [List.forall_mem_cons]
  exact ⟨by decide, schemaFits.holdable, by decide, itemFits.holdable, by decide, nofun⟩

theorem resolve_tableSeeds (tidy : planner.snapshot.Tidy) (orderly : planner.snapshot.Orderly)
    {item : String} (schemaFits : Sought schema) (itemFits : Sought item) :
    ∃ pattern files, Plan.expand planner.snapshot pattern = .ok files ∧
      planner.resolve .tableSeeds none (some schema) (some item) =
        ⟨[.tried pattern], .ok files⟩ :=
  ⟨_, resolve_seeds tidy orderly (tableSeeds_pattern schemaFits.free itemFits.free)
    (tableSeeds_holdable schemaFits itemFits) (by decide)⟩

/-- Seeds of tables are scripts to be run or rows to be loaded. -/
theorem planTableSeeds_makes (seeds : planner.TableSeeds files) :
    ∃ steps, (planner.planTableSeeds inlined files).Makes () steps := by
  have each : ∀ path ∈ files, (planner.planSeedFile inlined (Path.schemaItem? path) path).Makes ()
      (Draft.stepsOf (planner.planSeedFile inlined (Path.schemaItem? path) path).events) := by
    intro path member
    obtain ⟨-, ⟨extension, known, ends⟩, target, named⟩ := seeds path member
    simp only [List.mem_cons, List.not_mem_nil, or_false] at known
    unfold planSeedFile
    rw [ends, named]
    rcases known with rfl | rfl
    · exact .step _
    · exact .step _
  exact ⟨_, .each each⟩

/-- The draft for the seeds of all tables of a schema. -/
def tableSeedsDraft (planner : Planner) (inlined : FileRef → Draft Unit) (schema : String) :
    Draft Unit :=
  (planner.resolve .tableSeeds none (some schema) (some Name.wildcard)).andThen
    (planner.planTableSeeds inlined)

theorem tableSeedsDraft_makes (tidy : planner.snapshot.Tidy) (orderly : planner.snapshot.Orderly)
    (schemaFits : Literal schema) : (planner.tableSeedsDraft inlined schema).Makes ()
      (Draft.stepsOf (planner.tableSeedsDraft inlined schema).events) := by
  obtain ⟨pattern, files, -, resolved⟩ :=
    resolve_tableSeeds tidy orderly schemaFits.sought .wildcard
  have fits : Fits schema := ⟨schemaFits.holdable.1.plain, schemaFits.free⟩
  have sound := resolve_tableSeeds_sound orderly fits (.inl rfl : Name.IsPart Name.wildcard)
  have seeds : planner.TableSeeds files := sound.value files (by rw [resolved])
  obtain ⟨steps, makes⟩ : ∃ steps, (planner.planTableSeeds inlined files).Makes () steps :=
    planTableSeeds_makes seeds
  have tried : (⟨[.tried pattern], .ok files⟩ : Draft (List String)).Makes files [] :=
    ⟨rfl, .singleton (by simp), rfl⟩
  have whole := tried.andThen makes
  unfold tableSeedsDraft
  rw [resolved]
  exact ⟨whole.ended, whole.closed, rfl⟩

theorem planSeeds_tables_makes (tidy : planner.snapshot.Tidy) (orderly : planner.snapshot.Orderly)
    (named : command.object = some "tables") (listed : planner.schemas = .ofSource (.ok schemas))
    (fits : ∀ schema ∈ schemas, Literal schema) :
    (planner.planSeeds inlined command).Makes () ((command.filterSchemas schemas).flatMap
      fun schema => Draft.stepsOf (planner.tableSeedsDraft inlined schema).events) := by
  unfold planSeeds
  rw [named]
  simp only [listed, Draft.bind_eq, Draft.ofSource_andThen]
  exact .each fun schema member => tableSeedsDraft_makes tidy orderly
    (fits schema (Command.mem_filterSchemas member))

theorem plan_seed (root : command.root = "seed") :
    planner.plan command =
      withSteps command (planner.planSeeds (planner.inlineFile depthLimit) command) :=
  planWith_seed _ root

/-- The draft that seeds the files of a pattern, each for its target. -/
def seedDraft (planner : Planner) (inlined : FileRef → Draft Unit) (pattern : String)
    (target : String → Option (String × String)) (files : List String) : Draft Unit :=
  (Draft.tried pattern).andThen fun _ =>
    Draft.each (fun path => planner.planSeedFile inlined (target path) path) files

/-- What a command that seeds one thing plans depends on the seed files that are selected. -/
theorem plan_seedsOne (tidy : planner.snapshot.Tidy) (orderly : planner.snapshot.Orderly)
    {whole : Command} (single : whole.SeedsOne) :
    ∃ pattern target files, Plan.expand planner.snapshot pattern = .ok files ∧
      ∀ listed : Command, listed.root = whole.root → listed.object = whole.object →
        listed.schemaNames = whole.schemaNames → listed.itemNames = whole.itemNames →
        planner.plan listed = withSteps listed (planner.seedDraft (planner.inlineFile depthLimit)
          pattern target (listed.selectSeeds files)) := by
  cases single with
  | database root named =>
      have rendered : FileKind.databaseSeeds.render none none none =
          .ok (Path.ofSegments (["seeds"] ++ ["*.\x7bsql,sh,ddsl\x7d"])) := rfl
      obtain ⟨files, expanded, resolved⟩ :=
        resolve_seeds tidy orderly rendered (by decide) (by decide)
      refine ⟨_, fun _ => none, files, expanded, fun listed same object _ _ => ?_⟩
      rw [plan_seed (same.trans root)]
      unfold planSeeds
      rw [object, named]
      simp only [resolved]
      rfl
  | @schema schema root named only identifier =>
      have sought : Sought schema := .of_part (.inr identifier)
      obtain ⟨files, expanded, resolved⟩ := resolve_seeds tidy orderly
        (schemaSeeds_pattern sought.free) (schemaSeeds_holdable sought) (by decide)
      refine ⟨_, fun path => some (schema, Path.stem path), files, expanded,
        fun listed same object schemas _ => ?_⟩
      rw [plan_seed (same.trans root)]
      unfold planSeeds
      rw [object, named]
      dsimp only
      rw [schemas, only, Draft.each_single]
      unfold planSchemaSeeds
      rw [resolved]
      rfl
  | table root named only qualified =>
      obtain ⟨schema, item, split, schemaPart, itemPart⟩ := qualified
      obtain ⟨pattern, files, expanded, resolved⟩ :=
        resolve_tableSeeds tidy orderly (.of_part schemaPart) (.of_part itemPart)
      refine ⟨pattern, Path.schemaItem?, files, expanded,
        fun listed same object _ items => ?_⟩
      rw [plan_seed (same.trans root)]
      unfold planSeeds
      rw [object, named]
      dsimp only
      rw [items, only, Draft.each_single]
      simp only [Command.splitName, split, Draft.bind_eq, Draft.done_andThen, resolved]
      rfl

end Seeds

section Clauses

variable {whole : Command} {State : Type}

/-- What a command plans for some schemas is divided as the schemas are. -/
theorem takesFilter_emits (tidy : planner.snapshot.Tidy) (orderly : planner.snapshot.Orderly)
    (literal : planner.snapshot.Literal) {all : List String}
    (listed : planner.schemas = .ofSource (.ok all)) (fits : ∀ schema ∈ all, Literal schema)
    (filtered : whole.TakesFilter) (database : Option (Database State)) (state : State) :
    ∃ make : List String → List Step,
      (∀ schemas kept left, Partitions schemas kept left →
        Partitions (make schemas) (make kept) (make left)) ∧
      ∀ command : Command, command.root = whole.root → command.object = whole.object →
        Plan.Emits command ((planner.plan command).settle database state).1
          (make (command.filterSchemas all)) := by
  cases filtered with
  | @items verb items _ root named plural =>
      refine ⟨planner.allSteps verb items, fun _ _ _ => allSteps_partitions, ?_⟩
      exact fun command same also => plan_allItems_emits tidy orderly (fun _ => literal)
        (same.trans root) (also.trans named) plural listed fits database state
  | seeds root named =>
      refine ⟨(·.flatMap fun schema => Draft.stepsOf
        (planner.tableSeedsDraft (planner.inlineFile depthLimit) schema).events),
        fun _ _ _ partitions => partitions.flatMap _, fun command same also => ?_⟩
      rw [plan_seed (same.trans root)]
      exact withSteps_emits (planSeeds_tables_makes tidy orderly (also.trans named) listed fits)
        database state

/-- Every schema is in both lists or in neither, but for names that no folder has. -/
def SameSchemas (snapshot : Snapshot) (names others : List String) : Prop :=
  ∀ schema, (schema ∈ names ↔ schema ∈ others) ∨
    Name.isIdentifier schema = true ∧ ⟨schema, true⟩ ∉ snapshot.held ["schemas"]

/-- Of the schemas that are listed, such lists hold the same. -/
theorem SameSchemas.contains {names others all : List String}
    (same : SameSchemas planner.snapshot names others)
    (among : ∀ schema, planner.snapshot.Shows (Path.ofSegments ["schemas", schema]) →
      (schema ∈ all ↔ ⟨schema, true⟩ ∈ planner.snapshot.held ["schemas"] ∧
        Glob.anyName schema = true)) (member : schema ∈ all) :
    others.contains schema = names.contains schema := by
  rcases same schema with either | ⟨identifier, absent⟩
  · rw [Bool.eq_iff_iff]
    simp [either]
  · exact absurd ((among schema (shows_of_identifier identifier)).mp member).1 absent

/-- Seed files with the names of some in the list, in its order, and all others. -/
structure Groups (files kept left names : List String) : Prop where
  together : (kept ++ left).Perm files
  kept : kept = names.flatMap fun name => files.filter fun file => Path.stem file == name
  left : left = files.filter fun file => !names.contains (Path.stem file)

/-- The names in the list that some file has. -/
def usedNames (files names : List String) : List String :=
  names.filter fun name => files.any fun file => Path.stem file == name

theorem grouped_used (files names : List String) :
    (names.flatMap fun name => files.filter fun file => Path.stem file == name) =
      (usedNames files names).flatMap fun name =>
        files.filter fun file => Path.stem file == name := by
  have filled : usedNames files names =
      names.filter fun name => (files.filter fun file => Path.stem file == name) ≠ [] := by
    refine List.filter_congr fun name _ => ?_
    rw [Bool.eq_iff_iff]
    simp
  rw [filled, Plan.flatMap_filled]

theorem others_used (files names : List String) :
    (files.filter fun file => !names.contains (Path.stem file)) =
      files.filter fun file => !(usedNames files names).contains (Path.stem file) := by
  refine List.filter_congr fun file member => congrArg (!·) ?_
  have there : files.any (fun other => Path.stem other == Path.stem file) = true :=
    List.any_eq_true.mpr ⟨file, member, beq_self_eq_true _⟩
  rw [Bool.eq_iff_iff]
  simp only [usedNames, List.contains_iff_mem, List.mem_filter, there, and_true]

/-- A command on all schemas emits, for the schemas in a list and for all others, the steps of one
part and the steps of the other, each in order. A command that seeds one thing with the names in a
list groups the seed files by these names; without them it keeps the others in order. Names that
nothing has make no difference. -/
theorem plan_filters_partition (tidy : planner.snapshot.Tidy)
    (orderly : planner.snapshot.Orderly) (literal : planner.snapshot.Literal)
    (bare : whole.clause = none) (database : Option (Database State)) (state : State) :
    (whole.TakesFilter → ∃ all,
      Plan.Emits whole ((planner.plan whole).settle database state).1 all ∧
      ∀ names, ∃ kept left, Partitions all kept left ∧ ∀ listed : Command,
        SameSchemas planner.snapshot names listed.schemaNames →
        (listed.Narrows whole .within →
          Plan.Emits listed ((planner.plan listed).settle database state).1 kept) ∧
        (listed.Narrows whole .exceptIn →
          Plan.Emits listed ((planner.plan listed).settle database state).1 left)) ∧
    (whole.SeedsOne → ∃ pattern target files,
      Plan.expand planner.snapshot pattern = .ok files ∧
      planner.plan whole = withSteps whole
        (planner.seedDraft (planner.inlineFile depthLimit) pattern target files) ∧
      ∀ names : List String, names.Nodup → ∃ kept left, Groups files kept left names ∧
        ∀ listed : Command, listed.schemaNames = whole.schemaNames →
        listed.itemNames = whole.itemNames →
        usedNames files listed.seedNames = usedNames files names →
        (listed.Narrows whole .withSeeds → planner.plan listed = withSteps listed
          (planner.seedDraft (planner.inlineFile depthLimit) pattern target kept)) ∧
        (listed.Narrows whole .withoutSeeds → planner.plan listed = withSteps listed
          (planner.seedDraft (planner.inlineFile depthLimit) pattern target left))) := by
  constructor
  · intro filtered
    obtain ⟨all, named, -, fits, among⟩ := schemas_spec tidy orderly
    obtain ⟨make, divided, emits⟩ :=
      takesFilter_emits tidy orderly literal named fits filtered database state
    -- the steps of a command depend on the schemas that are left, and divide as these do
    have every := emits whole rfl rfl
    rw [Command.filterSchemas_bare bare] at every
    refine ⟨make all, every, fun names => ?_⟩
    refine ⟨_, _, divided _ _ _ (Partitions.filter names.contains all), fun listed alike => ?_⟩
    have same : ∀ schema ∈ all, listed.schemaNames.contains schema = names.contains schema :=
      fun schema member => alike.contains among member
    refine ⟨fun inner => ?_, fun outer => ?_⟩
    · have emitted := emits listed inner.root inner.object
      rwa [Command.filterSchemas_within inner.clause, List.filter_congr same] at emitted
    · have emitted := emits listed outer.root outer.object
      rwa [Command.filterSchemas_exceptIn outer.clause, List.filter_congr fun schema member =>
        congrArg (!·) (same schema member)] at emitted
  · intro single
    obtain ⟨pattern, target, files, expanded, planned⟩ := plan_seedsOne tidy orderly single
    have every := planned whole rfl rfl rfl rfl
    rw [Command.selectSeeds_bare bare] at every
    refine ⟨pattern, target, files, expanded, every, fun names distinct => ?_⟩
    refine ⟨_, _, ⟨Plan.group_perm Path.stem distinct files, rfl, rfl⟩,
      fun listed schemas items same => ⟨fun picks => ?_, fun omits => ?_⟩⟩
    · rw [planned listed picks.root picks.object schemas items,
        Command.selectSeeds_with picks.clause, grouped_used, same, ← grouped_used]
    · rw [planned listed omits.root omits.object schemas items,
        Command.selectSeeds_without omits.clause, others_used, same, ← others_used]

end Clauses

/-- Two schemas with a table each, and two seeds of the database. -/
def seeded : Planner where
  grammar := Grammar.builtin
  snapshot := .disk ⟨".", .node (.folder (.folder "schemas"
      (.folder "app" (.folder "tables" (.folder "t"
        (.file "table.create.sql" (.text "create table t (id)") .nil) .nil) .nil)
      (.folder "web" (.folder "tables" (.folder "u"
        (.file "table.create.sql" (.text "create table u (id)") .nil) .nil) .nil) .nil))
    (.folder "seeds" (.file "a.sql" (.text "select 1") (.file "b.sql" (.text "select 2") .nil))
    .nil)))⟩
  ref := none
  autoTransaction := true

def createListed : Command :=
  ⟨"create", ["create", "tables", "in"], some "tables", some .within,
    [⟨"schema-names", .list ["app", "gone"]⟩], none, "create tables in app,gone", 1⟩

def createOthers : Command :=
  ⟨"create", ["create", "tables", "except", "in"], some "tables", some .exceptIn,
    [⟨"schema-names", .list ["app", "gone"]⟩], none, "create tables except in app,gone", 1⟩

def seedDatabase : Command :=
  ⟨"seed", ["seed", "database"], some "database", none, [], none, "seed database", 1⟩

def seedListed : Command :=
  ⟨"seed", ["seed", "database", "with"], some "database", some .withSeeds,
    [⟨"seed-names", .list ["b", "a"]⟩], none, "seed database with b,a", 1⟩

def seedOthers : Command :=
  ⟨"seed", ["seed", "database", "without"], some "database", some .withoutSeeds,
    [⟨"seed-names", .list ["b", "a"]⟩], none, "seed database without b,a", 1⟩

theorem plan_filters_partition_seeded :
    (∀ command ∈ [createTables, createListed, createOthers, seedDatabase, seedListed, seedOthers],
      Command.parse Grammar.builtin command.text = .ok [command]) ∧
    (∃ all kept left, Partitions all kept left ∧
      Plan.Emits createTables
        ((seeded.plan createTables).settle (none : Option (Database Unit)) ()).1 all ∧
      Plan.Emits createListed
        ((seeded.plan createListed).settle (none : Option (Database Unit)) ()).1 kept ∧
      Plan.Emits createOthers
        ((seeded.plan createOthers).settle (none : Option (Database Unit)) ()).1 left) ∧
    ∃ pattern target files kept left, Groups files kept left ["b", "a"] ∧
      Plan.expand seeded.snapshot pattern = .ok files ∧
      seeded.plan seedDatabase = withSteps seedDatabase
        (seeded.seedDraft (seeded.inlineFile depthLimit) pattern target files) ∧
      seeded.plan seedListed = withSteps seedListed
        (seeded.seedDraft (seeded.inlineFile depthLimit) pattern target kept) ∧
      seeded.plan seedOthers = withSteps seedOthers
        (seeded.seedDraft (seeded.inlineFile depthLimit) pattern target left) := by
  have tidy : seeded.snapshot.Tidy := by
    rintro folder ⟨⟩
    decide
  have orderly : seeded.snapshot.Orderly := by
    rintro folder ⟨⟩
    decide
  have literal : seeded.snapshot.Literal := by
    rintro folder ⟨⟩
    decide
  have absent : ⟨"gone", true⟩ ∉ seeded.snapshot.held ["schemas"] := by decide +kernel
  -- the schema that does not exist makes no difference
  have same : SameSchemas seeded.snapshot ["app"] ["app", "gone"] := by
    intro schema
    by_cases gone : schema = "gone"
    · subst gone
      exact .inr ⟨by decide, absent⟩
    · simp [gone]
  refine ⟨by decide +kernel, ?_, ?_⟩
  · obtain ⟨filters, -⟩ := plan_filters_partition tidy orderly literal
      (rfl : createTables.clause = none) (none : Option (Database Unit)) ()
    have tables : ItemClass.ofObject? "tables" = some (.table, true) := rfl
    have root : createTables.root = Verb.create.name := rfl
    obtain ⟨all, emits, divided⟩ := filters (.items root rfl tables)
    obtain ⟨kept, left, partitions, listed⟩ := divided ["app"]
    exact ⟨all, kept, left, partitions, emits, (listed createListed same).1 ⟨rfl, rfl, rfl⟩,
      (listed createOthers same).2 ⟨rfl, rfl, rfl⟩⟩
  · obtain ⟨-, seeds⟩ := plan_filters_partition tidy orderly literal
      (rfl : seedDatabase.clause = none) (none : Option (Database Unit)) ()
    obtain ⟨pattern, target, files, expanded, every, divided⟩ := seeds (.database rfl rfl)
    obtain ⟨kept, left, groups, listed⟩ := divided ["b", "a"] (by decide)
    exact ⟨pattern, target, files, kept, left, groups, expanded, every,
      (listed seedListed rfl rfl rfl).1 ⟨rfl, rfl, rfl⟩,
      (listed seedOthers rfl rfl rfl).2 ⟨rfl, rfl, rfl⟩⟩

end Planner

end Rollout
