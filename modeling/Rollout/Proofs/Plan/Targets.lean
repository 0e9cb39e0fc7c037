import Rollout.Proofs.Plan.Filters
import Rollout.Proofs.Plan.Selection

/-!
The tables that rows are loaded into. The path of a file with rows names a schema and a table, and
the command that selects the file assigns it to this table.
-/

namespace Rollout

namespace Path

/-- The path of a file of rows, below the schema and the table that they belong to. -/
inductive Targets : String → String → String → Prop where
  | ofSchema {schema table : String} (free : '/' ∉ schema.toList) (single : '/' ∉ table.toList) :
      Targets (ofSegments ["schemas", schema, "seeds", table ++ ".csv"]) schema table
  | ofTable {schema table file : String} (free : '/' ∉ schema.toList)
      (single : '/' ∉ table.toList) (last : '/' ∉ file.toList) :
      Targets (ofSegments ["schemas", schema, "tables", table, "seeds", file ++ ".csv"])
        schema table

theorem segments_schemaRows {schema table : String} (free : '/' ∉ schema.toList)
    (single : '/' ∉ table.toList) :
    segments (ofSegments ["schemas", schema, "seeds", table ++ ".csv"]) =
      ["schemas", schema, "seeds", table ++ ".csv"] := by
  refine Text.splitAt_intercalate (List.cons_ne_nil _ _) ?_
  simp only [List.forall_mem_cons]
  exact ⟨by decide, free, by decide, by simp [single], nofun⟩

theorem segments_tableRows {schema table file : String} (free : '/' ∉ schema.toList)
    (single : '/' ∉ table.toList) (last : '/' ∉ file.toList) :
    segments (ofSegments ["schemas", schema, "tables", table, "seeds", file ++ ".csv"]) =
      ["schemas", schema, "tables", table, "seeds", file ++ ".csv"] := by
  refine Text.splitAt_intercalate (List.cons_ne_nil _ _) ?_
  simp only [List.forall_mem_cons]
  exact ⟨by decide, free, by decide, single, by decide, by simp [last], nofun⟩

theorem Targets.segments {path schema table : String} (targets : Targets path schema table) :
    segments path = ["schemas", schema, "seeds", table ++ ".csv"] ∨
      ∃ file, segments path = ["schemas", schema, "tables", table, "seeds", file ++ ".csv"] := by
  cases targets with
  | ofSchema free single => exact .inl (segments_schemaRows free single)
  | ofTable free single last => exact .inr ⟨_, segments_tableRows free single last⟩

/-- A path names no more than one table. -/
theorem Targets.unique {path schema table other item : String}
    (first : Targets path schema table) (second : Targets path other item) :
    other = schema ∧ item = table := by
  rcases first.segments with one | ⟨file, one⟩
  · rcases second.segments with two | ⟨more, two⟩
    · have same := two.symm.trans one
      simp only [List.cons.injEq] at same
      exact ⟨same.2.1, (String.append_left_inj _).mp same.2.2.2.1⟩
    · simp [one] at two
  · rcases second.segments with two | ⟨more, two⟩
    · simp [one] at two
    · have same := two.symm.trans one
      simp only [List.cons.injEq] at same
      exact ⟨same.2.1, same.2.2.2.1⟩

end Path

namespace Planner

variable {planner : Planner} {command : Command} {kind : FileKind} {schema item : Option String}
  {path : String}

theorem mem_seedFiles (member : path ∈ planner.seedFiles kind schema item) :
    ∃ pattern paths, kind.render none schema item = .ok pattern ∧
      Plan.expand planner.snapshot pattern = .ok paths ∧ path ∈ paths := by
  have verb : (if kind.isPrivileges then (none : Option Verb).map Verb.privileges else none) =
      none := by
    split <;> rfl
  unfold seedFiles Draft.results at member
  split at member
  · rename_i files outcome
    simp only [resolve, verb] at outcome
    split at outcome
    · cases outcome
    · rename_i pattern rendered
      obtain ⟨found, listed, later, -⟩ := Draft.andThen_ok outcome
      obtain ⟨_, -, done, -⟩ := Draft.andThen_ok later
      cases done
      exact ⟨pattern, files, rendered, Draft.ok_of_ofSource listed, member⟩
  · cases member

/-- A seed file lies in folders that its pattern spells. -/
theorem seed_parts (orderly : planner.snapshot.Orderly) {segments : List String} {file : String}
    (rendered : kind.render none schema item = .ok (Path.ofSegments (segments ++ [file])))
    (holdable : ∀ segment ∈ segments, Path.Holdable segment) (free : '/' ∉ file.toList)
    (member : path ∈ planner.seedFiles kind schema item) :
    ∃ chosen name, path = Path.ofSegments (chosen ++ [name]) ∧
      (∀ name ∈ chosen, Path.IsName name) ∧ List.Forall₂ Plan.Chosen segments chosen ∧
      Path.IsName name ∧ (Glob.ofSegment file).accepts name = true := by
  obtain ⟨pattern, paths, other, expanded, among⟩ := mem_seedFiles member
  cases rendered.symm.trans other
  obtain ⟨directory, chosen, name, written, proper, each, joined, named, -, accepted⟩ :=
    Plan.mem_expand_parts orderly (Plan.straight_ofSegments holdable free) expanded among
  have proper' : ∀ segment ∈ segments, Path.IsName segment :=
    fun segment member => (holdable segment member).1
  rw [Plan.splitFile_ofSegments free] at each accepted
  rw [(Plan.Written.of_names proper').steps proper'] at each
  exact ⟨chosen, name, joined.trans (written.join_eq named), proper, each, named, accepted⟩

/-- A seed file with rows is named for something, without a dot. -/
theorem rows_named {extensions chosen : List String} {file name : String}
    (glob : Glob.ofSegment file = seedGlob extensions)
    (letters : ∀ extension ∈ extensions, IsExtension extension)
    (accepted : (Glob.ofSegment file).accepts name = true) (named : Path.IsName name)
    (ends : Path.extension? (Path.ofSegments (chosen ++ [name])) = some "csv") :
    ∃ stem, name = stem ++ ".csv" ∧ '/' ∉ stem.toList ∧
      Path.stem (Path.ofSegments (chosen ++ [name])) = stem := by
  rw [Glob.accepts_iff, glob] at accepted
  obtain ⟨stem, ending, whole, -, plain, among⟩ := Glob.matches_extension accepted
  obtain ⟨extension, within, rfl⟩ := List.mem_map.mp among
  have dot : '.' ∉ extension.toList := (letters extension within).2.1
  have last : Path.fileName (Path.ofSegments (chosen ++ [name])) = name :=
    congrArg Prod.snd (Plan.splitFile_ofSegments named.free)
  unfold Path.extension? at ends
  rw [last, whole, Text.cutLast_append stem dot] at ends
  obtain rfl : extension = "csv" := by simpa using ends
  have text : name = String.ofList stem ++ "." ++ "csv" := by
    apply String.ext
    simp [whole]
  have clean : '.' ∉ (String.ofList stem).toList := by
    rw [String.toList_ofList]
    exact fun dot => absurd (plain '.' dot) (by decide)
  refine ⟨String.ofList stem, ?_, ?_, ?_⟩
  · rw [text, String.append_assoc]
    rfl
  · rw [String.toList_ofList]
    exact fun slash => absurd (plain '/' slash) (by decide)
  · have pieces : Text.splitAt '.' (String.ofList stem ++ "." ++ "csv") =
        [String.ofList stem] ++ Text.splitAt '.' "csv" := by
      have parts : Text.splitAt '.' (String.ofList stem ++ String.singleton '.' ++ "csv") =
          Text.splitAt '.' (String.ofList stem) ++ Text.splitAt '.' "csv" :=
        Text.splitAt_append (String.ofList stem) "csv"
      rwa [Text.splitAt_of_free clean] at parts
    unfold Path.stem
    rw [last, text, pieces]
    rfl

theorem schemaSeeds_targets (orderly : planner.snapshot.Orderly) {schema : String}
    (literal : Literal schema) (found : path ∈ planner.seedFiles .schemaSeeds (some schema) none)
    (ends : Path.extension? path = some "csv") : Path.Targets path schema (Path.stem path) := by
  have plain : ∀ segment ∈ ["schemas", schema, "seeds"], Path.isWildcard segment = false := by
    simp only [List.forall_mem_cons]
    exact ⟨by decide, literal.literal, by decide, nofun⟩
  have glob : Glob.ofSegment "*.\x7bsql,csv,sh,ddsl\x7d" =
      seedGlob ["sql", "csv", "sh", "ddsl"] := rfl
  obtain ⟨chosen, name, rfl, -, each, named, accepted⟩ :=
    seed_parts orderly (schemaSeeds_pattern literal.free) (schemaSeeds_holdable literal.sought)
      (by decide) found
  obtain ⟨table, rfl, single, stem⟩ := rows_named glob (by decide) accepted named ends
  rw [stem, eq_of_chosen plain each]
  exact .ofSchema literal.holdable.1.free single

/-- The names of the schema and of the table are chosen, the others are those of the pattern. -/
theorem chosen_tableSeeds {schema item : String} {chosen : List String}
    (each : List.Forall₂ Plan.Chosen ["schemas", schema, "tables", item, "seeds"] chosen) :
    ∃ inside table, chosen = ["schemas", inside, "tables", table, "seeds"] ∧
      Plan.Chosen schema inside ∧ Plan.Chosen item table := by
  cases each with
  | cons first each => cases each with
    | cons second each => cases each with
      | cons third each => cases each with
        | cons fourth each => cases each with
          | cons fifth each =>
              cases each
              rw [chosen_literal (by decide)] at first third fifth
              rw [first, third, fifth]
              exact ⟨_, _, rfl, second, fourth⟩

theorem tableSeeds_targets (orderly : planner.snapshot.Orderly) {schema item : String}
    (schemaPart : Sought schema) (itemPart : Name.IsPart item)
    (found : path ∈ planner.seedFiles .tableSeeds (some schema) (some item))
    (ends : Path.extension? path = some "csv") :
    ∃ inside table, Path.schemaItem? path = some (inside, table) ∧
      Path.Targets path inside table := by
  have itemFits := Sought.of_part itemPart
  have glob : Glob.ofSegment "*.\x7bcsv,sql\x7d" = seedGlob ["csv", "sql"] := rfl
  obtain ⟨chosen, name, rfl, proper, each, named, accepted⟩ := seed_parts orderly
    (tableSeeds_pattern schemaPart.free itemFits.free) (tableSeeds_holdable schemaPart itemFits)
    (by decide) found
  obtain ⟨file, rfl, last, -⟩ := rows_named glob (by decide) accepted named ends
  obtain ⟨inside, table, rfl, -, among⟩ := chosen_tableSeeds each
  simp only [List.forall_mem_cons] at proper
  obtain ⟨-, schemaName, -, tableName, -⟩ := proper
  have stem : Text.splitAt '.' table = [table] := Text.splitAt_of_free (chosen_item itemPart among)
  refine ⟨inside, table, ?_, .ofTable schemaName.free tableName.free last⟩
  have segments := Path.segments_tableRows schemaName.free tableName.free last
  unfold Path.schemaItem?
  simp [segments, stem, schemaName.filled, tableName.filled]

theorem Assigns.targets (tidy : planner.snapshot.Tidy) (orderly : planner.snapshot.Orderly)
    (understood : command.Understood) {target : Option (String × String)}
    (assigns : planner.Assigns command path target) (ends : Path.extension? path = some "csv")
    {schema table : String} (same : target = some (schema, table)) :
    Path.Targets path schema table := by
  have literal {schema : String} (about : planner.About command schema) : Literal schema := by
    rcases about with named | found
    · have identifier := understood.schemaNames_isIdentifier named
      exact ⟨(Sought.of_part (.inr identifier)).holdable,
        Path.not_isWildcard_of_isIdentifier identifier⟩
    · obtain ⟨all, listed, -, fits, -⟩ := schemas_spec tidy orderly
      rw [listed] at found
      exact fits schema found
  cases assigns with
  | nothing => cases same
  | bySchema about found =>
      cases same
      exact schemaSeeds_targets orderly (literal about) found ends
  | byName named split found =>
      obtain ⟨_, _, parts, schemaPart, itemPart⟩ := understood.itemNames_isQualified named
      cases parts.symm.trans split
      obtain ⟨inside, item, read, targets⟩ :=
        tableSeeds_targets orderly (.of_part schemaPart) itemPart found ends
      cases read.symm.trans same
      exact targets
  | byPath about found =>
      obtain ⟨inside, item, read, targets⟩ :=
        tableSeeds_targets orderly (literal about).sought (.inl rfl) found ends
      cases read.symm.trans same
      exact targets

end Planner

end Rollout
