import Rollout.Plan.Seeds
import Rollout.Proofs.Plan.Planner

/-!
Planning to seed, and to run scripts, does not blame a command that was understood: the patterns
of seeds leave only extensions that are known, and the tables of rows are always named.
-/

namespace Rollout.Planner

open Plan (Written Plain Chosen)

variable {planner : Planner}

/-- The pattern of seed files with one of some extensions. -/
def seedGlob (extensions : List String) : Glob :=
  [.wildcard, .letter '.', .oneOf (extensions.map String.toList)]

/-- Extensions of plain letters. -/
def IsExtension (extension : String) : Prop :=
  extension ≠ "" ∧ '.' ∉ extension.toList ∧ '"' ∉ extension.toList

instance (extension : String) : Decidable (IsExtension extension) :=
  inferInstanceAs (Decidable (_ ∧ _))

/-- A name with such an extension does not end as escaped forms do. -/
theorem IsExtension.ends {extension : String} (letters : IsExtension extension)
    (stem : List Char) : (stem ++ '.' :: extension.toList).getLast? ≠ some '"' := by
  obtain ⟨filled, -, quote⟩ := letters
  intro last
  have tail : extension.toList.getLast? = some '"' := by
    cases text : extension.toList with
    | nil => exact absurd (String.ext text) filled
    | cons c rest =>
        rw [text] at last
        simpa [List.getLast?_append, List.getLast?_cons_cons] using last
  exact quote (List.mem_of_getLast? tail)

/-- Seed files are found, under names with one of the extensions. -/
theorem seeds_found {pattern path directory file : String} {extensions paths : List String}
    (orderly : planner.snapshot.Orderly) (split : pattern = directory ++ "/" ++ file)
    (slash : '/' ∉ file.toList) (glob : Glob.ofSegment file = seedGlob extensions)
    (letters : ∀ extension ∈ extensions, IsExtension extension)
    (expanded : Plan.expand planner.snapshot pattern = .ok paths) (member : path ∈ paths) :
    planner.snapshot.Found path ∧ ∃ extension ∈ extensions,
      Path.extension? path = some extension := by
  obtain ⟨_, folder, name, -, -, rfl, lists, accepted⟩ := Plan.mem_expand expanded member
  have proper : Path.IsName name := lists.isName orderly
  rw [split, Path.splitFile_append directory slash, Glob.accepts_iff, glob] at accepted
  obtain ⟨stem, ending, whole, -, -, among⟩ := Glob.matches_extension accepted
  obtain ⟨extension, within, rfl⟩ := List.mem_map.mp among
  obtain ⟨-, dot, -⟩ := letters extension within
  constructor
  · refine .matched lists ?_
    rw [whole]
    exact (letters extension within).ends stem
  · refine ⟨extension, within, ?_⟩
    unfold Path.extension?
    rw [Path.fileName_join proper, whole, Text.cutLast_append stem dot]
    simp

theorem schemaSeeds_pattern {schema : String} (free : '\x7b' ∉ schema.toList) :
    FileKind.schemaSeeds.render none (some schema) none = .ok (Path.ofSegments
      (["schemas", schema, "seeds"] ++ ["*.\x7bsql,csv,sh,ddsl\x7d"])) := by
  rw [FileKind.render_schemaSeeds free]
  apply congrArg Except.ok
  apply String.ext
  simp [Path.ofSegments, FileKind.schemaSeedsTail]

theorem tableSeeds_pattern {schema item : String} (schemaFree : '\x7b' ∉ schema.toList)
    (itemFree : '\x7b' ∉ item.toList) :
    FileKind.tableSeeds.render none (some schema) (some item) = .ok (Path.ofSegments
      (["schemas", schema, "tables", item, "seeds"] ++ ["*.\x7bcsv,sql\x7d"])) := by
  rw [FileKind.render_tableSeeds schemaFree itemFree]
  apply congrArg Except.ok
  apply String.ext
  simp [Path.ofSegments, FileKind.tableSeedsTail]

theorem chosen_item {item name : String} (part : Name.IsPart item) (chosen : Chosen item name) :
    '.' ∉ name.toList := by
  unfold Chosen at chosen
  split at chosen
  · rename_i wild
    have any : item = Name.wildcard := by
      rcases part with wildcard | identifier
      · exact wildcard
      · simp [Path.not_isWildcard_of_isIdentifier identifier] at wild
    -- a wildcard stands for characters other than dots
    have accepted := chosen.2
    have single : Glob.ofSegment Name.wildcard = [.wildcard] := rfl
    rw [any, Glob.accepts_iff, single, Glob.matches_wildcard] at accepted
    intro dot
    have plain := accepted.2 '.' dot
    revert plain
    decide
  · rw [chosen]
    exact part.not_mem (by decide) (by decide)

theorem tableSeeds_segments {schema item : String} (fits : Fits schema)
    (part : Name.IsPart item) :
    Path.segments (Path.splitFile
      ("schemas/" ++ schema ++ "/tables/" ++ item ++ FileKind.tableSeedsTail)).1 =
        ["schemas", schema, "tables", item, "seeds"] := by
  have whole : "schemas/" ++ schema ++ "/tables/" ++ item ++ FileKind.tableSeedsTail =
      "schemas" ++ "/" ++ schema ++ "/" ++ "tables" ++ "/" ++ item ++ "/" ++ "seeds" ++ "/" ++
        "*.\x7bcsv,sql\x7d" := by
    apply String.ext
    simp [FileKind.tableSeedsTail]
  have table : Plain item := (Fits.of_part part).plain
  rw [whole, Path.splitFile_append _ (by decide)]
  simp only [Path.segments_append, Path.segments_of_free fits.plain.2.2,
    Path.segments_of_free table.2.2]
  rfl

/-- The seeds of a table stand below the names of its schema and of itself. -/
theorem tableSeeds_schemaItem {schema item path : String} {paths : List String}
    (orderly : planner.snapshot.Orderly) (fits : Fits schema) (part : Name.IsPart item)
    (expanded : Plan.expand planner.snapshot
      ("schemas/" ++ schema ++ "/tables/" ++ item ++ FileKind.tableSeedsTail) = .ok paths)
    (member : path ∈ paths) : ∃ target, Path.schemaItem? path = some target := by
  obtain ⟨directories, directory, name, reached, among, rfl, lists, -⟩ :=
    Plan.mem_expand expanded member
  have proper : Path.IsName name := lists.isName orderly
  have segments := tableSeeds_segments fits part
  have table : Plain item := (Fits.of_part part).plain
  have plain : ∀ segment ∈ ["schemas", schema, "tables", item, "seeds"], Plain segment := by
    simp only [List.forall_mem_cons]
    exact ⟨by decide, fits.plain, by decide, table, by decide, nofun⟩
  obtain ⟨chosen, each, written⟩ :=
    Plan.mem_expandDirectories orderly (by rwa [segments]) reached among
  rw [segments] at each
  simp only [List.forall₂_cons_left_iff, List.forall₂_nil_left_iff] at each
  obtain ⟨top, _, first, ⟨inside, _, second, ⟨_, _, -, ⟨below, _, fourth,
    ⟨_, _, -, rfl, rfl⟩, rfl⟩, rfl⟩, rfl⟩, rfl⟩ := each
  obtain rfl : top = "schemas" := first
  have whole := written.segments_join ⟨proper.filled, proper.here, proper.free⟩
  have stem : Text.splitAt '.' below = [below] := Text.splitAt_of_free (chosen_item part fourth)
  refine ⟨(inside, below), ?_⟩
  unfold Path.schemaItem?
  rw [whole]
  simp [stem, (second.plain fits.plain).1, (fourth.plain table).1]

/-- What stands for a file of commands is sound for every file that was found. -/
def Inlines (planner : Planner) (inlined : FileRef → Draft Unit) : Prop :=
  ∀ file, planner.Records file → planner.Sound (fun _ => True) (inlined file)

variable {inlined : FileRef → Draft Unit}

theorem planSeedFile_sound (inlines : planner.Inlines inlined) {target : Option (String × String)}
    {path extension : String} (found : planner.snapshot.Found path)
    (ends : Path.extension? path = some extension)
    (known : extension ∈ ["sql", "sh", "ddsl"] ∨ extension = "csv" ∧ target.isSome = true) :
    planner.Sound (fun _ => True) (planner.planSeedFile inlined target path) := by
  have records : planner.Records (planner.file path) := ⟨rfl, found⟩
  unfold planSeedFile
  rw [ends]
  rcases known with script | ⟨rfl, given⟩
  · simp only [List.mem_cons, List.not_mem_nil, or_false] at script
    rcases script with rfl | rfl | rfl
    · exact fileStep_sound rfl records
    · exact fileStep_sound rfl records
    · exact inlines _ records
  · obtain ⟨⟨schema, table⟩, rfl⟩ := Option.isSome_iff_exists.mp given
    exact fileStep_sound rfl records

theorem planSchemaSeeds_sound (orderly : planner.snapshot.Orderly)
    (inlines : planner.Inlines inlined) (command : Command) {schema : String}
    (fits : Fits schema) :
    planner.Sound (fun _ => True) (planner.planSchemaSeeds inlined command schema) := by
  have split : "schemas/" ++ schema ++ FileKind.schemaSeedsTail =
      "schemas/" ++ schema ++ "/seeds" ++ "/" ++ "*.\x7bsql,csv,sh,ddsl\x7d" := by
    apply String.ext
    simp [FileKind.schemaSeedsTail]
  have resolved : planner.Sound (fun paths => ∀ path ∈ paths, planner.snapshot.Found path ∧
      ∃ extension ∈ ["sql", "csv", "sh", "ddsl"], Path.extension? path = some extension)
      (planner.resolve .schemaSeeds none (some schema) none) :=
    resolve_sound (FileKind.render_schemaSeeds fits.free) fun paths expanded path member =>
      seeds_found orderly split (by decide) rfl (by decide) expanded member
  refine .andThen resolved fun files found => .each fun path member => ?_
  obtain ⟨held, extension, known, ends⟩ := found path (Command.mem_selectSeeds member)
  refine planSeedFile_sound inlines held ends ?_
  simp only [List.mem_cons, List.not_mem_nil, or_false] at known ⊢
  rcases known with known | known | known | known <;> simp [known]

/-- Seeds of tables can be planned: rows among them have a table to go to. -/
def TableSeeds (planner : Planner) (paths : List String) : Prop :=
  ∀ path ∈ paths, planner.snapshot.Found path ∧
    (∃ extension ∈ ["csv", "sql"], Path.extension? path = some extension) ∧
    ∃ target, Path.schemaItem? path = some target

theorem resolve_tableSeeds_sound (orderly : planner.snapshot.Orderly) {schema item : String}
    (fits : Fits schema) (part : Name.IsPart item) :
    planner.Sound planner.TableSeeds
      (planner.resolve .tableSeeds none (some schema) (some item)) := by
  have split : "schemas/" ++ schema ++ "/tables/" ++ item ++ FileKind.tableSeedsTail =
      "schemas/" ++ schema ++ "/tables/" ++ item ++ "/seeds" ++ "/" ++ "*.\x7bcsv,sql\x7d" := by
    apply String.ext
    simp [FileKind.tableSeedsTail]
  refine resolve_sound (FileKind.render_tableSeeds fits.free (Fits.of_part part).free) ?_
  intro paths expanded path member
  have seeds : planner.snapshot.Found path ∧
      ∃ extension ∈ ["csv", "sql"], Path.extension? path = some extension :=
    seeds_found orderly split (by decide) rfl (by decide) expanded member
  exact ⟨seeds.1, seeds.2, tableSeeds_schemaItem orderly fits part expanded member⟩

theorem planTableSeeds_sound (inlines : planner.Inlines inlined) {files : List String}
    (seeds : planner.TableSeeds files) :
    planner.Sound (fun _ => True) (planner.planTableSeeds inlined files) := by
  refine .each fun path member => ?_
  obtain ⟨found, ⟨extension, known, ends⟩, target, named⟩ := seeds path member
  refine planSeedFile_sound inlines found ends ?_
  simp only [List.mem_cons, List.not_mem_nil, or_false] at known ⊢
  rcases known with known | known <;> simp [known, named]

/-- A script's path is recorded as it was given, once its name is in the listing of its
directory. -/
theorem planScript_sound {command : Command} (understood : command.Understood)
    (slots : "sql" ∈ command.arguments.map (·.slot)) :
    planner.Sound (fun _ => True) (planner.planScript command) := by
  unfold planScript
  obtain ⟨text, raw | path⟩ := understood.value_sql slots
  · rw [raw]
    exact plainStep_sound rfl
  · rw [path]
    simp only [Draft.bind_eq]
    refine .andThen (.event trivial) fun _ _ => ?_
    have listed : planner.Sound
        (fun found => found ≠ [] → planner.snapshot.Found (Path.dropDots text))
        (.ofSource (planner.snapshot.files (Path.splitFile (Path.dropDots text)).1
          (· == (Path.splitFile (Path.dropDots text)).2))) := by
      refine .ofSource (fun _ => rfl) fun found shown filled => ?_
      obtain ⟨file, member⟩ := List.exists_mem_of_ne_nil found filled
      obtain ⟨lists, -, accepted⟩ := Snapshot.mem_files shown member
      rw [beq_iff_eq.mp accepted] at lists
      exact .named lists
    refine .andThen listed fun found held => ?_
    split
    · rename_i filled
      exact fileStep_sound rfl ⟨rfl, held filled⟩
    · exact .done trivial

theorem planSeeds_sound (orderly : planner.snapshot.Orderly) (inlines : planner.Inlines inlined)
    {command : Command} (understood : command.Understood)
    (named : Command.namesSeeds command.object (command.arguments.map (·.slot)) = true) :
    planner.Sound (fun _ => True) (planner.planSeeds inlined command) := by
  unfold planSeeds
  -- the objects in the order in which they are told apart
  split
  · have resolved : planner.Sound (fun paths => ∀ path ∈ paths, planner.snapshot.Found path ∧
        ∃ extension ∈ ["sql", "sh", "ddsl"], Path.extension? path = some extension)
        (planner.resolve .databaseSeeds none none none) := by
      have rendered : FileKind.databaseSeeds.render none none none =
          .ok ("seeds" ++ "/" ++ "*.\x7bsql,sh,ddsl\x7d") := rfl
      exact resolve_sound rendered fun paths expanded path member =>
        seeds_found orderly rfl (by decide) rfl (by decide) expanded member
    refine .andThen resolved fun files found => .each fun path member => ?_
    obtain ⟨held, extension, known, ends⟩ := found path (Command.mem_selectSeeds member)
    exact planSeedFile_sound inlines held ends (.inl known)
  · exact .each fun schema member => planSchemaSeeds_sound orderly inlines command
      (.of_part (.inr (understood.schemaNames_isIdentifier member)))
  · exact .andThen (schemas_sound orderly) fun all fits => .each fun schema member =>
      planSchemaSeeds_sound orderly inlines command
        (fits schema (Command.mem_filterSchemas member))
  · refine .each fun name member => ?_
    refine .andThen (Command.splitName_sound (understood.itemNames_isQualified member)) ?_
    rintro ⟨schema, item⟩ ⟨schemaPart, itemPart⟩
    refine .andThen (resolve_tableSeeds_sound orderly (.of_part schemaPart) itemPart) ?_
    exact fun files seeds => planTableSeeds_sound inlines fun path kept =>
      seeds path (Command.mem_selectSeeds kept)
  · refine .andThen (schemas_sound orderly) fun all fits => .each fun schema member => ?_
    refine .andThen (resolve_tableSeeds_sound orderly
      (fits schema (Command.mem_filterSchemas member)) (.inl rfl)) ?_
    exact fun files seeds => planTableSeeds_sound inlines seeds
  · rename_i object
    have slots : "cmd" ∈ command.arguments.map (·.slot) := by
      simpa [object, Command.namesSeeds] using named
    obtain ⟨text, value⟩ := understood.value_cmd slots
    rw [value]
    exact plainStep_sound rfl
  · rename_i object
    exact planScript_sound understood (by simpa [object, Command.namesSeeds] using named)
  · -- no other object is left that can be named
    unfold Command.namesSeeds at named
    split at named <;> simp_all

end Rollout.Planner
