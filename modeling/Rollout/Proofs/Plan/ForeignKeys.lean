import Mathlib.Data.List.Nodup
import Rollout.Proofs.Plan.Emitted

/-!
The foreign keys of tables. Where all tables are created or dropped, those of every schema stand
together: behind all other steps when they are created, and before them when they are dropped.
-/

namespace Rollout

/-- Does the step run a file of the foreign keys of a table? -/
def Step.isForeignKeys (verb : Verb) : Step → Bool
  | .execFile file =>
      match Path.segments file.path with
      | ["schemas", _, "tables", _, name] => name == FileKind.scriptName "foreign-keys" verb
      | _ => false
  | _ => false

namespace Planner

variable {planner : Planner} {kind : FileKind} {verb : Verb} {items : ItemClass}
  {schema path : String} {schemas : List String} {step : Step}

/-- The names that lead to the foreign keys of a table. -/
def keyNames (verb : Verb) (schema table : String) : List String :=
  ["schemas", schema, "tables", table, FileKind.scriptName "foreign-keys" verb]

theorem segments_of_isForeignKeys (keys : (planner.execs path).isForeignKeys verb = true) :
    ∃ schema table, Path.segments path = keyNames verb schema table := by
  unfold Step.isForeignKeys execs file at keys
  dsimp only at keys
  split at keys
  · rename_i schema table name segments
    rw [segments, beq_iff_eq.mp keys]
    exact ⟨schema, table, rfl⟩
  · cases keys

/-- Files of items are not those of foreign keys. -/
theorem apart_of_hits (has : kind ∈ items.kinds) {item : String}
    (hits : Hits planner.snapshot (kind.spot verb schema item).1 (kind.spot verb schema item).2
      path) : (planner.execs path).isForeignKeys verb = false := by
  rw [Bool.eq_false_iff]
  intro keys
  obtain ⟨inside, table, segments⟩ := segments_of_isForeignKeys keys
  obtain ⟨stands, each, accepted⟩ := hits
  rw [stands.segments] at segments
  rcases ItemClass.kinds_cases has with ⟨folders, file, placed⟩ | ⟨-, -, none⟩
  · rw [FileKind.spot_placed placed] at accepted
    have last := (FileKind.accepts_scriptName (FileKind.file_placed placed).2).mp accepted
    have names := congrArg List.getLast? segments
    refine (ItemClass.script_apart folders).2 verb kind has ?_
    rw [FileKind.script?, placed]
    simpa [last, keyNames] using names
  -- types are files of their schema, one folder higher
  · have length := each.length_eq
    have segments := congrArg List.length segments
    rw [FileKind.spot_type none] at length
    simp [keyNames, ← length] at segments

theorem segments_keyNames (tidy : planner.snapshot.Tidy) {table : String}
    (isFile : planner.snapshot.IsFile (keyNames verb schema table)) :
    Path.segments (Path.ofSegments (keyNames verb schema table)) = keyNames verb schema table := by
  obtain ⟨content, led⟩ := isFile
  exact Text.splitAt_intercalate (List.cons_ne_nil _ _) fun name member =>
    (tidy.names_holdable led name member).1.free

theorem execs_isForeignKeys (tidy : planner.snapshot.Tidy) {table : String}
    (isFile : planner.snapshot.IsFile (keyNames verb schema table)) :
    (planner.execs (Path.ofSegments (keyNames verb schema table))).isForeignKeys verb = true := by
  unfold Step.isForeignKeys execs file
  dsimp only
  rw [segments_keyNames tidy isFile]
  exact beq_self_eq_true _

section Keys

variable (tidy : planner.snapshot.Tidy) (orderly : planner.snapshot.Orderly)

include tidy

theorem hits_keys (schemaFits : Literal schema) :
    Hits planner.snapshot ["schemas", schema, "tables", Name.wildcard]
        (FileKind.scriptName "foreign-keys" verb) path ↔
      planner.snapshot.Shows path ∧ ∃ table, '.' ∉ table.toList ∧
        path = Path.ofSegments (keyNames verb schema table) ∧
        planner.snapshot.IsFile (keyNames verb schema table) := by
  have plain : Path.isWildcard (FileKind.scriptName "foreign-keys" verb) = false := by
    cases verb <;> decide
  have top : Path.isWildcard "schemas" = false := by decide
  have among : Path.isWildcard "tables" = false := by decide
  constructor
  · rintro ⟨stands, each, accepted⟩
    simp only [List.forall₂_cons_left_iff, List.forall₂_nil_left_iff, chosen_literal top,
      chosen_literal among, chosen_literal schemaFits.literal] at each
    obtain ⟨_, _, rfl, ⟨_, _, rfl, ⟨_, _, rfl, ⟨table, _, any, rfl, rfl⟩, rfl⟩, rfl⟩, rfl⟩ := each
    obtain rfl := (FileKind.accepts_scriptName (by decide)).mp accepted
    exact ⟨stands.shows, table, (chosen_any (stands.named table (by simp))).mp any, rfl,
      stands.isFile⟩
  · rintro ⟨shows, table, free, rfl, isFile⟩
    have stands : Stands planner.snapshot ["schemas", schema, "tables", table]
        (FileKind.scriptName "foreign-keys" verb) := .of_isFile tidy isFile shows
    refine .at stands ?_ ((Glob.accepts_literal plain).mpr rfl)
    rw [chosen_items schemaFits among]
    exact ⟨rfl, (chosen_any (stands.named table (by simp))).mpr free⟩

include orderly

theorem itemSteps_apart (typed : items = .type → planner.snapshot.Literal)
    (schemaFits : Literal schema) (member : step ∈ planner.itemSteps verb items schema) :
    step.isForeignKeys verb = false := by
  have seeks : Seeks (items.planned verb) verb schema (some items.anyItem) _ _ :=
    seeks_spot (items.planned_mem verb) schemaFits.sought Asks.anyItem.sought
  unfold itemSteps at member
  dsimp only at member
  rcases List.mem_append.mp member with first | later
  · obtain ⟨path, among, rfl⟩ := List.mem_map.mp first
    exact apart_of_hits (items.planned_mem verb) ((mem_found_iff tidy orderly seeks).mp among)
  · split at later
    · rename_i creating
      obtain ⟨rfl, -⟩ := creating
      obtain ⟨item, owner, attached⟩ := List.mem_flatMap.mp later
      obtain ⟨kind, belongs, among⟩ := List.mem_flatMap.mp attached
      obtain ⟨path, within, rfl⟩ := List.mem_map.mp among
      have has := ItemClass.attachment_mem belongs
      have itemFits := (itemsOf_makes tidy orderly typed schemaFits).2 item owner
      exact apart_of_hits has ((mem_found_iff tidy orderly
        (seeks_spot has schemaFits.sought itemFits.sought)).mp within)
    · cases later

theorem keySteps_isForeignKeys (fits : ∀ schema ∈ schemas, Literal schema)
    (member : step ∈ planner.keySteps verb schemas) : step.isForeignKeys verb = true := by
  obtain ⟨schema, among, keyed⟩ := List.mem_flatMap.mp member
  obtain ⟨path, found, rfl⟩ := List.mem_map.mp keyed
  obtain ⟨-, table, -, rfl, isFile⟩ := (hits_keys tidy (fits schema among)).mp
    ((mem_found_iff tidy orderly (seeks_foreignKeys (fits schema among).sought none)).mp found)
  exact execs_isForeignKeys tidy isFile

/-- The files of foreign keys in some schemas. -/
theorem mem_keys_iff (fits : ∀ schema ∈ schemas, Literal schema) :
    path ∈ schemas.flatMap (planner.found .foreignKeys verb · none) ↔
      planner.snapshot.Shows path ∧ ∃ schema ∈ schemas, ∃ table, '.' ∉ table.toList ∧
        path = Path.ofSegments (keyNames verb schema table) ∧
        planner.snapshot.IsFile (keyNames verb schema table) := by
  have each : ∀ schema ∈ schemas, (path ∈ planner.found .foreignKeys verb schema none ↔ _) :=
    fun schema member => (mem_found_iff tidy orderly
      (seeks_foreignKeys (fits schema member).sought none)).trans
        (hits_keys tidy (fits schema member))
  rw [List.mem_flatMap]
  constructor
  · rintro ⟨schema, member, among⟩
    obtain ⟨shows, table⟩ := (each schema member).mp among
    exact ⟨shows, schema, member, table⟩
  · rintro ⟨shows, schema, member, table⟩
    exact ⟨schema, member, (each schema member).mpr ⟨shows, table⟩⟩

theorem keys_nodup (distinct : schemas.Nodup) (fits : ∀ schema ∈ schemas, Literal schema) :
    (schemas.flatMap (planner.found .foreignKeys verb · none)).Nodup := by
  have seeks (schema : String) (member : schema ∈ schemas) :
      Seeks .foreignKeys verb schema none _ _ := seeks_foreignKeys (fits schema member).sought none
  refine List.nodup_flatMap.mpr ⟨fun schema member =>
    (found_ascends tidy orderly (seeks schema member)).imp ne_of_lt, ?_⟩
  refine distinct.imp_of_mem fun {first second} one two apart path left right => apart ?_
  have inside {schema : String} (member : schema ∈ schemas)
      (among : path ∈ planner.found .foreignKeys verb schema none) :
      ∃ table, Path.segments path = keyNames verb schema table := by
    obtain ⟨-, table, -, rfl, isFile⟩ := (hits_keys tidy (fits schema member)).mp
      ((mem_found_iff tidy orderly (seeks schema member)).mp among)
    exact ⟨table, segments_keyNames tidy isFile⟩
  obtain ⟨_, here⟩ := inside one left
  obtain ⟨_, there⟩ := inside two right
  have same := here.symm.trans there
  simp only [keyNames, List.cons.injEq] at same
  exact same.2.1

end Keys

/-- A command that creates or drops all tables emits the foreign keys of the schemas that its clause
leaves, each once, behind all other steps or before them. They are the files of tables without dots
in their names, in schemas with names of one line; at a ref, those whose paths are listed as they
are. Without a clause a command on all foreign keys emits the same. -/
theorem plan_foreignKeys (tidy : planner.snapshot.Tidy) (orderly : planner.snapshot.Orderly)
    {command : Command} (root : command.root = verb.name) (making : verb.isPrivileges = false)
    (named : command.object = some "tables") {State : Type} (database : Option (Database State))
    (state : State) :
    ∃ (keys : List String) (others : List Step),
      Plan.Emits command ((planner.plan command).settle database state).1
        (if verb = .drop then keys.map planner.execs ++ others
          else others ++ keys.map planner.execs) ∧
      (∀ step ∈ others, step.isForeignKeys verb = false) ∧ keys.Nodup ∧
      (∀ path, path ∈ keys ↔ planner.snapshot.Shows path ∧ ∃ schema table,
        command.keeps schema = true ∧ '\n' ∉ schema.toList ∧ '.' ∉ table.toList ∧
        path = Path.ofSegments (keyNames verb schema table) ∧
        planner.snapshot.IsFile (keyNames verb schema table)) ∧
      ∀ keysOnly : Command, keysOnly.root = verb.name → keysOnly.object = some "foreign-keys" →
        command.clause = none →
        Plan.Emits keysOnly ((planner.plan keysOnly).settle database state).1
          (keys.map planner.execs) := by
  obtain ⟨all, listed, distinct, fits, -⟩ := schemas_spec tidy orderly
  have left : ∀ schema ∈ command.filterSchemas all, Literal schema :=
    fun schema member => fits schema (Command.mem_filterSchemas member)
  -- a schema with the foreign keys of a table is among those that are listed
  have shown {schema table : String}
      (shows : planner.snapshot.Shows (Path.ofSegments (keyNames verb schema table)))
      (isFile : planner.snapshot.IsFile (keyNames verb schema table)) :
      schema ∈ all ↔ '\n' ∉ schema.toList := by
    have stands : Stands planner.snapshot ["schemas", schema, "tables", table]
        (FileKind.scriptName "foreign-keys" verb) := .of_isFile tidy isFile shows
    obtain ⟨_, again, -, -, among⟩ := schemas_stands tidy orderly stands
    cases listed.symm.trans again
    rw [among]
    simp [Glob.anyName]
  have plural : ItemClass.ofObject? "tables" = some (.table, true) := rfl
  have typed : ItemClass.table = .type → planner.snapshot.Literal := by rintro ⟨⟩
  refine ⟨(command.filterSchemas all).flatMap (planner.found .foreignKeys verb · none),
    (command.filterSchemas all).flatMap (planner.itemSteps verb .table), ?_, ?_, ?_, ?_, ?_⟩
  · have emits := plan_allItems_emits tidy orderly typed root named plural listed fits database
      state
    unfold allSteps keySteps at emits
    rw [List.map_flatMap]
    cases verb <;> first | contradiction | simpa using emits
  · intro step member
    obtain ⟨schema, inside, within⟩ := List.mem_flatMap.mp member
    exact itemSteps_apart tidy orderly typed (left schema inside) within
  · refine keys_nodup tidy orderly ?_ left
    rw [Command.filterSchemas_eq]
    exact distinct.filter _
  · intro path
    rw [mem_keys_iff tidy orderly left]
    refine and_congr_right fun shows => ?_
    constructor
    · rintro ⟨schema, member, table, free, rfl, isFile⟩
      rw [Command.filterSchemas_eq] at member
      obtain ⟨inside, kept⟩ := List.mem_filter.mp member
      exact ⟨schema, table, kept, (shown shows isFile).mp inside, free, rfl, isFile⟩
    · rintro ⟨schema, table, kept, line, free, rfl, isFile⟩
      refine ⟨schema, ?_, table, free, rfl, isFile⟩
      rw [Command.filterSchemas_eq]
      exact List.mem_filter.mpr ⟨(shown shows isFile).mpr line, kept⟩
  · intro keysOnly root named none
    refine plan_emits root ?_ database state
    rw [planObjects_foreignKeys named, listed, Draft.ofSource_andThen,
      Command.filterSchemas_bare none, List.map_flatMap]
    exact planForeignKeys_makes tidy orderly fits

/-- A table with foreign keys, and foreign keys in a schema that has no table file. -/
def keyed : Planner where
  grammar := Grammar.builtin
  snapshot := .disk ⟨".", .node (.folder (.folder "schemas"
    (.folder "app" (.folder "tables" (.folder "t" (.file "foreign-keys.create.sql" (.text "select 2")
        (.file "table.create.sql" (.text "create table t (id)") .nil)) .nil) .nil)
      (.folder "web" (.folder "tables" (.folder "u"
        (.file "foreign-keys.create.sql" (.text "select 3") .nil) .nil) .nil) .nil)) .nil))⟩
  ref := none
  autoTransaction := true

def createForeignKeys : Command :=
  ⟨"create", ["create", "foreign-keys"], some "foreign-keys", none, [], none,
    "create foreign-keys", 1⟩

theorem plan_foreignKeys_keyed :
    Command.parse Grammar.builtin "create tables" = .ok [createTables] ∧
      Command.parse Grammar.builtin "create foreign-keys" = .ok [createForeignKeys] ∧
      ∃ (keys : List String) (others : List Step),
        Plan.Emits createTables
            ((keyed.plan createTables).settle (none : Option (Database Unit)) ()).1
            (others ++ keys.map keyed.execs) ∧
          (∀ step ∈ others, step.isForeignKeys .create = false) ∧ keys.Nodup ∧
          "schemas/app/tables/t/foreign-keys.create.sql" ∈ keys ∧
          "schemas/web/tables/u/foreign-keys.create.sql" ∈ keys ∧
          Plan.Emits createForeignKeys
            ((keyed.plan createForeignKeys).settle (none : Option (Database Unit)) ()).1
            (keys.map keyed.execs) := by
  have tidy : keyed.snapshot.Tidy := by
    rintro folder ⟨⟩
    decide
  have orderly : keyed.snapshot.Orderly := by
    rintro folder ⟨⟩
    decide
  have root : createTables.root = Verb.create.name := rfl
  obtain ⟨keys, others, emits, apart, distinct, among, only⟩ :=
    plan_foreignKeys tidy orderly root rfl rfl (none : Option (Database Unit)) ()
  refine ⟨by decide +kernel, by decide +kernel, keys, others, emits, apart, distinct, ?_, ?_,
    only createForeignKeys rfl rfl rfl⟩
  · exact (among _).mpr ⟨nofun, "app", "t", rfl, by decide, by decide, by decide,
      .text "select 2", by decide +kernel⟩
  · exact (among _).mpr ⟨nofun, "web", "u", rfl, by decide, by decide, by decide,
      .text "select 3", by decide +kernel⟩

/-- Foreign keys of a table whose name holds a quotation mark, at a ref. -/
def quotedKeys : Planner where
  grammar := Grammar.builtin
  snapshot := .revision ⟨"main", .node (.folder (.folder "schemas" (.folder "app" (.folder "tables"
    (.folder "a\"b" (.file "foreign-keys.create.sql" (.text "SELECT 1") .nil) .nil) .nil) .nil)
    .nil))⟩
  ref := some "main"
  autoTransaction := true

/-- Foreign keys in a schema whose name is of two lines. -/
def brokenKeys : Planner where
  grammar := Grammar.builtin
  snapshot := .disk ⟨".", .node (.folder (.folder "schemas" (.folder "a\nb" (.folder "tables"
    (.folder "t" (.file "foreign-keys.create.sql" (.text "SELECT 1") .nil) .nil) .nil) .nil)
    .nil))⟩
  ref := none
  autoTransaction := true

def createTablesAtMain : Command :=
  ⟨"create", ["create", "tables"], some "tables", none, [], some "main", "create tables #main", 1⟩

/-- Neither file is found, although nothing leaves its schema out and its table has no dot in its
name. -/
theorem plan_foreignKeys_misses :
    Command.parse Grammar.builtin "create tables #main" = .ok [createTablesAtMain] ∧
      quotedKeys.snapshot.Tidy ∧ quotedKeys.snapshot.Orderly ∧
      quotedKeys.snapshot.IsFile (keyNames .create "app" "a\"b") ∧
      ((quotedKeys.plan createTablesAtMain).settle (none : Option (Database Unit)) ()).1.outcome =
        .error (.noMatch "create tables #main" ["schemas/app/tables/?/foreign-keys.create.sql",
          "schemas/app/tables/?/table.create.sql"]) ∧
      Command.parse Grammar.builtin "create tables" = .ok [createTables] ∧
      brokenKeys.snapshot.Tidy ∧ brokenKeys.snapshot.Orderly ∧
      brokenKeys.snapshot.IsFile (keyNames .create "a\nb" "t") ∧
      ((brokenKeys.plan createTables).settle (none : Option (Database Unit)) ()).1.outcome =
        .error (.noSchemas "create tables" "schemas/?") := by
  refine ⟨by decide +kernel, ?tidy, ?orderly, ⟨.text "SELECT 1", by decide +kernel⟩,
    by decide +kernel, by decide +kernel, ?whole, ?straight, ⟨.text "SELECT 1", by decide +kernel⟩,
    by decide +kernel⟩
  case tidy | orderly | whole | straight =>
    rintro folder ⟨⟩
    decide

end Planner

end Rollout
