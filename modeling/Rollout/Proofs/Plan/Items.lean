import Rollout.Proofs.Plan.Found
import Rollout.Proofs.Plan.Settled

/-!
Which files of items the commands on all items of a class come to. A question mark for the items
of a schema stands for names without dots, so an item is planned once if its name has none, and is
passed over if it has one.
-/

namespace Rollout

namespace Planner

variable {planner : Planner} {kind : FileKind} {verb : Verb} {schema : String}
  {item : Option String} {pattern path : String} {paths : List String}

section Tallies

variable {names : List String} {name : String} {event : Draft.Event} {count : Nat}
  {items : ItemClass}

theorem emit_tallies {values : List String → Prop}
    (found : (planner.emitFound kind verb (some schema) item).Tallies event count values) :
    (planner.emit kind verb (some schema) item).Tallies event count fun _ => True :=
  .thenNever found fun _ _ => .done trivial

variable (tidy : planner.snapshot.Tidy) (orderly : planner.snapshot.Orderly)

include tidy orderly

/-- What belongs to an item has names of its own. -/
theorem attach_never (folders : items ≠ .type) (schemaFits : Literal schema) {item : String}
    (itemFits : Literal item) (stands : Stands planner.snapshot names name)
    (primary : items.primary.script? .create = some name) :
    (planner.attach items schema item).Tallies
      (planner.runs (Path.ofSegments (names ++ [name]))) 0 fun _ => True := by
  refine .each_never fun kind member => ?_
  obtain ⟨file, placed⟩ := items.placed folders kind (ItemClass.attachment_mem member)
  refine emit_tallies (emitFound_never tidy orderly
    (seeks_placed placed schemaFits.sought itemFits.sought) stands ?_)
  rintro ⟨-, accepted⟩
  refine (ItemClass.script_apart folders).1 kind member ?_
  rw [primary, (FileKind.accepts_scriptName (FileKind.file_placed placed).2).mp accepted,
    FileKind.script?, placed]
  rfl

theorem foreignKeys_never (folders : items ≠ .type) {schemas : List String}
    (fits : ∀ schema ∈ schemas, Literal schema) (stands : Stands planner.snapshot names name)
    (primary : items.primary.script? verb = some name) :
    (planner.planForeignKeys verb schemas).Tallies
      (planner.runs (Path.ofSegments (names ++ [name]))) 0 fun _ => True := by
  refine .each_never fun schema member => emit_tallies (emitFound_never tidy orderly
    (seeks_foreignKeys (fits schema member).sought none) stands ?_)
  rintro ⟨-, accepted⟩
  have same := (FileKind.accepts_scriptName (by decide)).mp accepted
  exact (ItemClass.script_apart folders).2 verb _ items.primary_mem (by rw [primary, same])

/-- In a schema an item is planned as often as its own file is. -/
theorem planSchemaItems_tallies (folders : items ≠ .type) (schemaFits : Literal schema)
    (stands : Stands planner.snapshot names name)
    (script : (items.planned verb).script? verb = some name)
    (found : (planner.emitFound (items.planned verb) verb (some schema)
      (some Name.wildcard)).Tallies (planner.runs (Path.ofSegments (names ++ [name]))) count
        fun _ => True) :
    (planner.planSchemaItems verb items schema).Tallies
      (planner.runs (Path.ofSegments (names ++ [name]))) count fun _ => True := by
  unfold planSchemaItems
  rw [items.anyItem_folders folders]
  unfold ItemClass.planned at script found
  split <;> rename_i privileges
  · rw [if_pos privileges] at found
    exact emit_tallies found
  · rw [if_neg privileges] at script found
    refine .thenNever found fun paths _ => ?_
    split
    · rename_i created
      rw [created.1] at script
      obtain ⟨all, listed, fits⟩ := itemsOf_spec tidy orderly folders schemaFits paths
      rw [listed]
      refine .afterNever (.ofSource rfl rfl) ?_
      rintro _ rfl
      exact .each_never fun item member => attach_never tidy orderly folders schemaFits
        (fits item member) stands script
    · exact .done trivial

/-- The schemas in which a file can be looked for have its own among them, if its name is listed. -/
theorem schemas_stands {rest : List String}
    (stands : Stands planner.snapshot ("schemas" :: schema :: rest) name) :
    ∃ all, planner.schemas = .ofSource (.ok all) ∧ all.Nodup ∧ (∀ other ∈ all, Literal other) ∧
      (schema ∈ all ↔ Glob.anyName schema = true) := by
  obtain ⟨all, listed, nodup, fits, among⟩ := schemas_spec tidy orderly
  refine ⟨all, listed, nodup, fits, ?_⟩
  have whole : "schemas" :: schema :: rest ++ [name] =
      ["schemas", schema] ++ (rest ++ [name]) := rfl
  obtain ⟨content, led⟩ := stands.hasFile
  have shows := stands.shows
  rw [stands.steps, whole] at led
  rw [whole] at shows
  obtain ⟨folder, inner⟩ := Snapshot.reach_folder (by simp) led
  have led : planner.snapshot.reach (["schemas"] ++ [schema]) = .node (.folder folder) := inner
  have held : ⟨schema, true⟩ ∈ planner.snapshot.held ["schemas"] := Snapshot.held_of_reach led
  rw [among schema (shows.start (List.cons_ne_nil _ _))]
  exact and_iff_right held

/-- With all schemas listed, an item is planned as often as in the schemas that the clause
leaves. -/
theorem planAllItems_tallies (folders : items ≠ .type) {command : Command} {all : List String}
    (listed : planner.schemas = .ofSource (.ok all)) (fits : ∀ other ∈ all, Literal other)
    (stands : Stands planner.snapshot names name)
    (script : (items.planned verb).script? verb = some name)
    (each : (Draft.each (planner.planSchemaItems verb items) (command.filterSchemas all)).Tallies
      (planner.runs (Path.ofSegments (names ++ [name]))) count fun _ => True) :
    (planner.planAllItems command verb items).Tallies
      (planner.runs (Path.ofSegments (names ++ [name]))) count fun _ => True := by
  have keys (given : verb.isPrivileges = false) :
      (planner.planForeignKeys verb (command.filterSchemas all)).Tallies
        (planner.runs (Path.ofSegments (names ++ [name]))) 0 fun _ => True := by
    rw [ItemClass.planned, given] at script
    exact foreignKeys_never tidy orderly folders
      (fun other member => fits other (Command.mem_filterSchemas member)) stands script
  unfold planAllItems
  rw [listed]
  refine .afterNever (.ofSource rfl rfl) ?_
  rintro _ rfl
  dsimp only
  split <;> rename_i dropping
  -- foreign keys stand before or after the items, and are other files
  · refine .afterNever (keys (by rw [dropping.2]; rfl)) fun _ _ => .thenNever each fun _ _ => ?_
    rw [if_neg (by simp [dropping.2])]
    exact .done trivial
  · refine .thenNever each fun _ _ => ?_
    split <;> rename_i creating
    · exact keys (by rw [creating.2]; rfl)
    · exact .done trivial

/-- In one schema, a file of an item is planned once if the name of the item has no dot, and not
otherwise. -/
theorem emitFound_item {directory file segment other : String}
    (seeks : Seeks kind verb other item ["schemas", other, directory, Name.wildcard]
      (FileKind.scriptName file verb))
    (literal : Path.isWildcard file = false) (plain : Path.isWildcard directory = false)
    (otherFits : Literal other)
    (stands : Stands planner.snapshot ["schemas", schema, directory, segment]
      (FileKind.scriptName file verb)) :
    (planner.emitFound kind verb (some other) item).Tallies
      (planner.runs (Path.ofSegments (["schemas", schema, directory, segment] ++
        [FileKind.scriptName file verb])))
      (if other = schema then if '.' ∈ segment.toList then 0 else 1 else 0) fun _ => True := by
  have proper : Path.IsName segment := stands.named segment (by simp)
  have chosen : List.Forall₂ Plan.Chosen ["schemas", other, directory, Name.wildcard]
      ["schemas", schema, directory, segment] ↔ schema = other ∧ '.' ∉ segment.toList := by
    rw [chosen_items otherFits plain, chosen_any proper]
  split <;> rename_i here
  · split <;> rename_i dot
    · refine emitFound_never tidy orderly seeks stands fun found => ?_
      exact (chosen.mp found.1).2 dot
    · exact (emitFound_once tidy orderly seeks stands (chosen.mpr ⟨here.symm, dot⟩)
        ((FileKind.accepts_scriptName literal).mpr rfl)).weaken fun _ _ => trivial
  · refine emitFound_never tidy orderly seeks stands fun found => ?_
    exact here (chosen.mp found.1).1.symm

theorem planSchemaItems_item (folders : items ≠ .type) {segment other : String}
    (stands : Stands planner.snapshot ["schemas", schema, items.directory, segment] name)
    (script : (items.planned verb).script? verb = some name) (otherFits : Literal other) :
    (planner.planSchemaItems verb items other).Tallies
      (planner.runs (Path.ofSegments (["schemas", schema, items.directory, segment] ++ [name])))
      (if other = schema then if '.' ∈ segment.toList then 0 else 1 else 0) fun _ => True := by
  refine planSchemaItems_tallies tidy orderly folders otherFits stands script ?_
  obtain ⟨file, placed⟩ := items.placed folders _ (items.planned_mem verb)
  have seeks : Seeks (items.planned verb) verb other (some Name.wildcard) _ _ :=
    seeks_placed placed otherFits.sought .wildcard
  rw [FileKind.script?, placed, Option.map_some, Option.some_inj] at script
  subst script
  rw [items.verbFor_planned] at seeks stands ⊢
  exact emitFound_item tidy orderly seeks (FileKind.file_placed placed).2
    (FileKind.directory_placed placed).2 otherFits stands

end Tallies

/-- The file that a command on all items of a class, or on all foreign keys, is to run for an item
of a schema. -/
inductive Covers (command : Command) (verb : Verb) (schema item : String) : String → Prop where
  | item {object : String} {items : ItemClass} {path : String}
      (named : command.object = some object)
      (plural : ItemClass.ofObject? object = some (items, true)) (folders : items ≠ .type)
      (kept : command.keeps schema = true)
      (rendered : (items.planned verb).render (some verb) (some schema) (some item) = .ok path) :
      Covers command verb schema item path
  | foreignKeys (named : command.object = some "foreign-keys") :
      Covers command verb schema item
        s!"schemas/{schema}/tables/{item}/foreign-keys.{verb.name}.sql"

/-- How often an item is planned: once, but an item with a dot in its name is not, nor is one in a
schema with a name of more than one line. -/
def tally (schema item : String) : Nat := if '.' ∈ item.toList ∨ '\n' ∈ schema.toList then 0 else 1

theorem planObjects_foreignKeys {command : Command}
    (named : command.object = some "foreign-keys") :
    planner.planObjects command verb =
      planner.schemas.andThen fun all => planner.planForeignKeys verb all := by
  unfold planObjects
  rw [named]
  rfl

/-- Over schemas that are listed once each, an item is planned as often as in its own. -/
theorem each_tallies {event : Draft.Event} {segment : String} {draft : String → Draft Unit}
    {among : List String} (distinct : among.Nodup)
    (left : schema ∈ among ↔ Glob.anyName schema = true)
    (draws : ∀ other ∈ among, (draft other).Tallies event
      (if other = schema then if '.' ∈ segment.toList then 0 else 1 else 0) fun _ => True) :
    (Draft.each draft among).Tallies event (tally schema segment) fun _ => True := by
  have here : schema ∈ among → (draft schema).Tallies event
      (if '.' ∈ segment.toList then 0 else 1) fun _ => True := by
    intro member
    simpa using draws schema member
  have elsewhere : ∀ other ∈ among, other ≠ schema →
      (draft other).Tallies event 0 fun _ => True := by
    intro other member apart
    simpa [apart] using draws other member
  have all := Draft.Tallies.each_distinct distinct here elsewhere
  have same : (if schema ∈ among then if '.' ∈ segment.toList then 0 else 1 else 0) =
      tally schema segment := by
    simp only [left, tally, Glob.anyName]
    by_cases dot : '.' ∈ segment.toList <;> by_cases line : '\n' ∈ schema.toList <;>
      simp [dot, line]
  rwa [same] at all

section Covering

variable (tidy : planner.snapshot.Tidy) (orderly : planner.snapshot.Orderly)

include tidy orderly

theorem planAllItems_item {items : ItemClass} (folders : items ≠ .type) {command : Command}
    (kept : command.keeps schema = true) {segment name : String}
    (stands : Stands planner.snapshot ["schemas", schema, items.directory, segment] name)
    (script : (items.planned verb).script? verb = some name) :
    (planner.planAllItems command verb items).Tallies
      (planner.runs (Path.ofSegments (["schemas", schema, items.directory, segment] ++ [name])))
      (tally schema segment) fun _ => True := by
  obtain ⟨all, listed, distinct, fits, among⟩ := schemas_stands tidy orderly stands
  refine planAllItems_tallies tidy orderly folders listed fits stands script ?_
  refine each_tallies ?_ ?_ fun other member => planSchemaItems_item tidy orderly folders stands
    script (fits other (Command.mem_filterSchemas member))
  · rw [Command.filterSchemas_eq]
    exact distinct.filter _
  · rw [Command.filterSchemas_eq, List.mem_filter, among]
    exact and_iff_left kept

theorem planForeignKeys_item {command : Command} (named : command.object = some "foreign-keys")
    {segment : String} (stands : Stands planner.snapshot ["schemas", schema, "tables", segment]
      (FileKind.scriptName "foreign-keys" verb)) :
    (planner.planObjects command verb).Tallies
      (planner.runs (Path.ofSegments (["schemas", schema, "tables", segment] ++
        [FileKind.scriptName "foreign-keys" verb])))
      (tally schema segment) fun _ => True := by
  obtain ⟨all, listed, distinct, fits, among⟩ := schemas_stands tidy orderly stands
  rw [planObjects_foreignKeys named, listed]
  refine .afterNever (.ofSource rfl rfl) ?_
  rintro _ rfl
  refine each_tallies distinct among fun other member => ?_
  exact emit_tallies (emitFound_item tidy orderly
    (seeks_foreignKeys (fits other member).sought none) (by decide) (by decide)
    (fits other member) stands)

theorem planObjects_covers {command : Command} {item : String}
    (covers : Covers command verb schema item path) (schemaFits : Literal schema)
    (itemFits : Literal item) (hasFile : planner.snapshot.HasFile path)
    (shows : planner.snapshot.Shows path) :
    (planner.planObjects command verb).Tallies (planner.runs path) (tally schema item)
      fun _ => True := by
  have stood {directory name : String} (inside : Path.IsName directory) (last : Path.IsName name)
      (same : path = Path.ofSegments (["schemas", schema, directory, item] ++ [name])) :
      Stands planner.snapshot ["schemas", schema, directory, item] name := by
    subst same
    refine ⟨?_, last, hasFile, shows⟩
    simp only [List.forall_mem_cons]
    exact ⟨by decide, schemaFits.holdable.1, inside, itemFits.holdable.1, nofun⟩
  cases covers with
  | @item object items _ named plural folders kept rendered =>
      obtain ⟨file, placed⟩ := items.placed folders _ (items.planned_mem verb)
      rw [FileKind.render_placed placed schemaFits.free itemFits.free, Except.ok.injEq] at rendered
      subst rendered
      rw [planObjects_items named plural, if_pos rfl]
      have inside := (FileKind.directory_placed placed).1.1
      have last := FileKind.scriptName_isName (FileKind.file_placed placed).1 verb
      refine planAllItems_item tidy orderly folders kept (stood inside last rfl) ?_
      rw [FileKind.script?, placed, items.verbFor_planned]
      rfl
  | foreignKeys named =>
      have same : s!"schemas/{schema}/tables/{item}/foreign-keys.{verb.name}.sql" =
          Path.ofSegments (["schemas", schema, "tables", item] ++
            [FileKind.scriptName "foreign-keys" verb]) := by
        apply String.ext
        simp [Path.ofSegments, FileKind.scriptName, toString]
      have last : Path.IsName (FileKind.scriptName "foreign-keys" verb) := by
        cases verb <;> decide
      have stands := stood (by decide : Path.IsName "tables") last same
      rw [same]
      exact planForeignKeys_item tidy orderly named stands

end Covering

/-- A command on all items of a class, or on all foreign keys, runs the file of each item that it
covers once. It does not run the file if the name of the item has a dot, or that of the schema is
not one line. -/
theorem plan_items_count (tidy : planner.snapshot.Tidy) (orderly : planner.snapshot.Orderly)
    {command : Command} (root : command.root = verb.name) {item : String}
    (covers : Covers command verb schema item path) (schemaFits : Literal schema)
    (itemFits : Literal item) (hasFile : planner.snapshot.HasFile path)
    (shows : planner.snapshot.Shows path) {State : Type} (database : Option (Database State))
    (state : State) :
    let plan := ((planner.plan command).settle database state).1
    plan.steps.count (.execFile (planner.file path)) =
        (if '.' ∈ item.toList ∨ '\n' ∈ schema.toList then 0 else 1) ∧
      ('.' ∉ item.toList → '\n' ∉ schema.toList → plan.outcome = .ok ()) := by
  obtain ⟨counted, _, ended, -⟩ :=
    planObjects_covers tidy orderly covers schemaFits itemFits hasFile shows
  refine ⟨?_, fun plain line => ?_⟩
  · rw [plan_steps database state root, List.count_cons_of_ne (by simp), Draft.count_stepsOf]
    exact counted
  · have once : tally schema item = 1 := if_neg (by simp [plain, line])
    rw [once] at counted
    have ran : planner.runs path ∈ (planner.planObjects command verb).events :=
      List.count_pos_iff.mp (by rw [counted]; exact Nat.one_pos)
    exact plan_ok database state root ended ran

/-- A schema with two tables, one of which has a dot in its name. -/
def dotted : Planner where
  grammar := Grammar.builtin
  snapshot := .disk ⟨".", .node (.folder (.folder "schemas" (.folder "app" (.folder "tables"
    (.folder "a.b" (.file "table.create.sql" (.text "create table \"a.b\" (id)") .nil)
      (.folder "users" (.file "table.create.sql" (.text "create table users (id)") .nil) .nil))
    .nil) .nil) .nil))⟩
  ref := none
  autoTransaction := true

def createTables : Command :=
  ⟨"create", ["create", "tables"], some "tables", none, [], none, "create tables", 1⟩

theorem plan_items_count_users :
    Command.parse Grammar.builtin "create tables" = .ok [createTables] ∧
      Covers createTables .create "app" "users" "schemas/app/tables/users/table.create.sql" ∧
      let plan := ((dotted.plan createTables).settle (none : Option (Database Unit)) ()).1
      plan.steps.count (.execFile ⟨"schemas/app/tables/users/table.create.sql", none⟩) = 1 ∧
        plan.outcome = .ok () := by
  have covers :
      Covers createTables .create "app" "users" "schemas/app/tables/users/table.create.sql" := by
    have plural : ItemClass.ofObject? "tables" = some (.table, true) := rfl
    exact .item rfl plural (by decide) rfl (by decide)
  have tidy : dotted.snapshot.Tidy := by
    rintro folder ⟨⟩
    decide
  have orderly : dotted.snapshot.Orderly := by
    rintro folder ⟨⟩
    decide
  have hasFile : dotted.snapshot.HasFile "schemas/app/tables/users/table.create.sql" :=
    ⟨.text "create table users (id)", by decide +kernel⟩
  obtain ⟨count, ok⟩ := plan_items_count tidy orderly rfl covers ⟨by decide, by decide⟩
    ⟨by decide, by decide⟩ hasFile nofun (none : Option (Database Unit)) ()
  exact ⟨by decide +kernel, covers, count, ok (by decide) (by decide)⟩

theorem dotted_planned :
    let plan := ((dotted.plan createTables).settle (none : Option (Database Unit)) ()).1
    plan.outcome = .ok () ∧ plan.steps = [.runCommand "create tables",
      .execFile ⟨"schemas/app/tables/users/table.create.sql", none⟩] := by
  decide +kernel

/-- The table with the dot in its name is passed over, and the plan does not tell. -/
theorem plan_items_skips_dotted :
    Command.parse Grammar.builtin "create tables" = .ok [createTables] ∧
      dotted.snapshot.Tidy ∧ dotted.snapshot.Orderly ∧
      Covers createTables .create "app" "a.b" "schemas/app/tables/a.b/table.create.sql" ∧
      dotted.snapshot.HasFile "schemas/app/tables/a.b/table.create.sql" ∧
      let plan := ((dotted.plan createTables).settle (none : Option (Database Unit)) ()).1
      plan.outcome = .ok () ∧
        .execFile ⟨"schemas/app/tables/a.b/table.create.sql", none⟩ ∉ plan.steps := by
  have plural : ItemClass.ofObject? "tables" = some (.table, true) := rfl
  obtain ⟨ended, steps⟩ := dotted_planned
  refine ⟨by decide +kernel, ?_, ?_, .item rfl plural (by decide) rfl (by decide),
    ⟨.text "create table \"a.b\" (id)", by decide +kernel⟩, ended, ?_⟩
  · rintro folder ⟨⟩
    decide
  · rintro folder ⟨⟩
    decide
  · rw [steps]
    decide

end Planner

end Rollout
