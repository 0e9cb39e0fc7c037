import Rollout.Proofs.Plan.Attachments
import Rollout.Proofs.Plan.Exact
import Rollout.Proofs.Plan.Targets

/-!
Names of items, read back. A pattern of an item, with wildcards or without, is expanded to paths;
the schema and the item that are read from such a path are those of the folders or the file that
it leads to, and filled in with them the template is the path again.
-/

namespace Rollout

namespace Path

/-- What is read from a path is the name of its second folder, and a name without dots. -/
structure Tells (path schema item : String) : Prop where
  read : schemaItem? path = some (schema, item)
  second : (segments path)[1]? = some schema
  plain : '.' ∉ item.toList

theorem Tells.of_segments {path schema directory file item : String} {below more : List String}
    (parts : segments path = "schemas" :: schema :: directory :: file :: below)
    (stem : Text.splitAt '.' file = item :: more) (schemaName : IsName schema)
    (itemName : IsName item) (plain : '.' ∉ item.toList) : Tells path schema item where
  read := schemaItem_of_segments parts stem schemaName.filled itemName.filled
  second := by
    rw [parts]
    rfl
  plain := plain

/-- Seeds of a table tell the table that they are below. -/
def TellsTable (path : String) : Prop :=
  ∃ schema table file, segments path = ["schemas", schema, "tables", table, "seeds", file] ∧
    Tells path schema table

end Path

namespace FileKind

/-- A path tells an item, and is what the template says for this item. -/
def ReadsBack (kind : FileKind) (verb : Verb) (path : String) : Prop :=
  ∃ schema item, Path.Tells path schema item ∧
    kind.render (some verb) (some schema) (some item) = .ok path

end FileKind

namespace Planner

open FileKind (scriptName)

section Expanding

variable {snapshot : Snapshot} {kind : FileKind} {verb : Verb} {schema item path : String}
  (tidy : snapshot.Tidy) (orderly : snapshot.Orderly)

include tidy orderly

/-- All that a filled in template is expanded to stands where it leads. -/
theorem expand_all {verb : Option Verb} {schema item : Option String} {segments : List String}
    {file : String} {property : String → Prop}
    (rendered : kind.render verb schema item = .ok (Path.ofSegments (segments ++ [file])))
    (holdable : ∀ segment ∈ segments, Path.Holdable segment) (free : '/' ∉ file.toList)
    (each : ∀ path, Hits snapshot segments file path → property path) :
    ∃ pattern paths, kind.render verb schema item = .ok pattern ∧
      Plan.expand snapshot pattern = .ok paths ∧ ∀ path ∈ paths, property path := by
  have plain (name : String) (accepted : (Glob.ofSegment file).accepts name = true) :
      name.toList.getLast? ≠ some '"' := by
    apply FileKind.render_accepts rendered
    rwa [Plan.splitFile_ofSegments free]
  obtain ⟨paths, expanded, -, found⟩ := expand_hits tidy orderly holdable free plain
  exact ⟨_, paths, rendered, expanded, fun path member => each path ((found path).mp member)⟩

section Items

variable (asks : Asks .type item)

include asks

/-- Where items are folders, the folder below the one of the class is the item. -/
theorem readsBack_folder {directory file : String}
    (placed : kind.place? = some (directory, file))
    (hits : Hits snapshot ["schemas", schema, directory, item] (scriptName file verb) path) :
    kind.ReadsBack verb path := by
  obtain ⟨inside, name, parts, insideFits, nameFits, -, chosen⟩ := hits_folder tidy orderly
    (FileKind.directory_placed placed).2 (FileKind.file_placed placed).2 hits
  have plain : '.' ∉ name.toList := chosen_asked asks chosen
  refine ⟨inside, name, ?_, ?_⟩
  · exact .of_segments parts (Text.splitAt_of_free plain) insideFits.holdable.1
      nameFits.holdable.1 plain
  · rw [FileKind.render_placed placed insideFits.free nameFits.free, ← parts,
      Path.ofSegments_segments]

/-- Where items are files, what stands before the verb is the item. -/
theorem readsBack_script (literal : snapshot.Literal)
    (types : kind = .type ∨ kind = .typePrivileges)
    (hits : Hits snapshot ["schemas", schema, "types"] (scriptName item verb) path) :
    kind.ReadsBack verb path := by
  obtain ⟨inside, name, parts, insideFits, holdable, plain, -, unmarked, -⟩ :=
    hits_script tidy orderly asks hits
  have nameFits : Literal name := ⟨holdable, unmarked literal⟩
  refine ⟨inside, name, ?_, ?_⟩
  · exact .of_segments parts (FileKind.splitAt_scriptName plain verb) insideFits.holdable.1
      holdable.1 plain
  · rw [FileKind.render_type types insideFits.free nameFits.free, ← parts,
      Path.ofSegments_segments]

theorem tellsTable_of_hits {file : String}
    (hits : Hits snapshot ["schemas", schema, "tables", item, "seeds"] file path) :
    Path.TellsTable path := by
  obtain ⟨stands, each, -⟩ := hits
  have folders := stands.literal tidy orderly
  have parts := stands.segments
  obtain ⟨inside, table, rfl, -, chosen⟩ := chosen_tableSeeds each
  have plain : '.' ∉ table.toList := chosen_asked asks chosen
  have insideFits : Literal inside := folders inside (by simp)
  have tableFits : Literal table := folders table (by simp)
  exact ⟨inside, table, _, parts, .of_segments parts (Text.splitAt_of_free plain)
    insideFits.holdable.1 tableFits.holdable.1 plain⟩

end Items

/-- What the pattern of an item is expanded to tells a schema and an item, from which the template
gives the path again; and the paths of seeds of tables tell the schema and the table. -/
theorem expand_readsBack (literal : snapshot.Literal) {items : ItemClass}
    (sort : kind = items.primary ∨ kind = items.privileges) (verb : Verb)
    (schemaPart : Name.IsPart schema) (itemPart : Name.IsPart item ∨ item = "*") :
    (∃ pattern paths, kind.render (some verb) (some schema) (some item) = .ok pattern ∧
      Plan.expand snapshot pattern = .ok paths ∧ ∀ path ∈ paths, kind.ReadsBack verb path) ∧
    ∃ pattern paths, FileKind.tableSeeds.render none (some schema) (some item) = .ok pattern ∧
      Plan.expand snapshot pattern = .ok paths ∧ ∀ path ∈ paths, Path.TellsTable path := by
  have asks : Asks .type item := itemPart.imp_right fun any => ⟨rfl, any⟩
  have schemaFits : Sought schema := .of_part schemaPart
  have itemFits : Sought item := asks.sought
  have member : kind ∈ items.kinds := by
    rcases sort with rfl | rfl
    · exact items.primary_mem
    · exact items.privileges_mem
  constructor
  · rcases ItemClass.kinds_cases member with ⟨-, file, placed⟩ | ⟨-, types, -⟩
    · have seeks : Seeks kind verb schema (some item) _ _ :=
        seeks_placed placed schemaFits itemFits
      exact expand_all tidy orderly (FileKind.render_placed placed schemaFits.free itemFits.free)
        seeks.holdable (FileKind.scriptName_free (FileKind.file_placed placed).1 verb)
        fun path => readsBack_folder tidy orderly asks placed
    · have seeks : Seeks kind verb schema (some item) _ _ := seeks_type types schemaFits itemFits
      exact expand_all tidy orderly (FileKind.render_type types schemaFits.free itemFits.free)
        seeks.holdable (FileKind.scriptName_free itemFits.holdable.1.free verb)
        fun path => readsBack_script tidy orderly asks literal types
  · exact expand_all tidy orderly (tableSeeds_pattern schemaFits.free itemFits.free)
      (tableSeeds_holdable schemaFits itemFits) (by decide)
      fun path => tellsTable_of_hits tidy orderly asks

end Expanding

/-- A type, and a table with rows. -/
def coloured : Snapshot :=
  .disk ⟨".", .node (.folder (.folder "schemas" (.folder "app"
    (.folder "tables" (.folder "t" (.folder "seeds" (.file "rows.csv" (.text "id\n1") .nil) .nil)
        .nil)
      (.folder "types" (.file "color.create.sql" (.text "create type color") .nil) .nil))
    .nil) .nil))⟩

/-- One asterisk finds the type, and the table by its rows. -/
theorem expand_readsBack_coloured :
    coloured.Tidy ∧ coloured.Orderly ∧ coloured.Literal ∧ Name.IsPart "?" ∧
      Plan.expand coloured "schemas/?/types/*.create.sql" =
        .ok ["schemas/app/types/color.create.sql"] ∧
      FileKind.type.ReadsBack .create "schemas/app/types/color.create.sql" ∧
      Plan.expand coloured "schemas/?/tables/*/seeds/*.\x7bcsv,sql\x7d" =
        .ok ["schemas/app/tables/t/seeds/rows.csv"] ∧
      Path.TellsTable "schemas/app/tables/t/seeds/rows.csv" := by
  have tidy : coloured.Tidy := by
    rintro folder ⟨⟩
    decide
  have orderly : coloured.Orderly := by
    rintro folder ⟨⟩
    decide
  have literal : coloured.Literal := by
    rintro folder ⟨⟩
    decide
  have part : Name.IsPart "?" := .inl rfl
  have types : Plan.expand coloured "schemas/?/types/*.create.sql" =
      .ok ["schemas/app/types/color.create.sql"] := by
    decide +kernel
  have rows : Plan.expand coloured "schemas/?/tables/*/seeds/*.\x7bcsv,sql\x7d" =
      .ok ["schemas/app/tables/t/seeds/rows.csv"] := by
    decide +kernel
  obtain ⟨⟨_, _, rendered, expanded, each⟩, _, _, filled, found, all⟩ :=
    expand_readsBack tidy orderly literal (.inl rfl : _ = ItemClass.type.primary ∨ _) .create part
      (.inr rfl)
  have pattern : FileKind.type.render (some .create) (some "?") (some "*") =
      .ok "schemas/?/types/*.create.sql" := by
    decide
  have seeds : FileKind.tableSeeds.render none (some "?") (some "*") =
      .ok "schemas/?/tables/*/seeds/*.\x7bcsv,sql\x7d" := by
    decide
  cases pattern.symm.trans rendered
  cases types.symm.trans expanded
  cases seeds.symm.trans filled
  cases rows.symm.trans found
  exact ⟨tidy, orderly, literal, part, types, each _ List.mem_cons_self, rows,
    all _ List.mem_cons_self⟩

end Planner

end Rollout
