import Rollout.Plan.Planner

/-!
Planning to seed, and to run scripts. The extension of a seed file says what becomes of it;
files of commands are inlined by a function that is given.
-/

namespace Rollout.Planner

/-- A script, or the file a path names if it exists. -/
def planScript (planner : Planner) (command : Command) : Draft Unit :=
  match command.value? "sql" with
  | some (.raw sql) => .step (.execScript sql)
  | some (.path path) => do
      let path := Path.dropDots path
      Draft.tried path
      let (directory, name) := Path.splitFile path
      let found ← .ofSource (planner.snapshot.files directory (· == name))
      if found ≠ [] then Draft.step (.execFile (planner.file path))
  | _ => command.unknown

/-- What becomes of a seed file. Rows are loaded into the target table. -/
def planSeedFile (planner : Planner) (inlined : FileRef → Draft Unit)
    (target : Option (String × String)) (path : String) : Draft Unit :=
  let file := planner.file path
  match Path.extension? path, target with
  | some "sql", _ => .step (.execFile file)
  | some "sh", _ => .step (.shellFile file)
  | some "csv", some (schema, table) => .step (.loadCsv file schema table)
  | some "ddsl", _ => inlined file
  | _, _ => .fail (.unsupportedSeed path)

/-- The seed files of a schema. Each is named for its table. -/
def planSchemaSeeds (planner : Planner) (inlined : FileRef → Draft Unit) (command : Command)
    (schema : String) : Draft Unit := do
  let files ← planner.resolve .schemaSeeds none (some schema) none
  Draft.each (fun path => planner.planSeedFile inlined (some (schema, Path.stem path)) path)
    (command.selectSeeds files)

def planTableSeeds (planner : Planner) (inlined : FileRef → Draft Unit) (files : List String) :
    Draft Unit :=
  .each (fun path => planner.planSeedFile inlined (Path.schemaItem? path) path) files

/-- Plans to seed what the object of the command names. -/
def planSeeds (planner : Planner) (inlined : FileRef → Draft Unit) (command : Command) :
    Draft Unit :=
  match command.object with
  | some "database" => do
      let files ← planner.resolve .databaseSeeds none none none
      Draft.each (planner.planSeedFile inlined none) (command.selectSeeds files)
  | some "schema" => Draft.each (planner.planSchemaSeeds inlined command) command.schemaNames
  | some "schemas" => do
      let all ← planner.schemas
      Draft.each (planner.planSchemaSeeds inlined command) (command.filterSchemas all)
  | some "table" =>
      .each (fun name => do
        let (schema, item) ← command.splitName name
        let files ← planner.resolve .tableSeeds none (some schema) (some item)
        planner.planTableSeeds inlined (command.selectSeeds files)) command.itemNames
  | some "tables" => do
      let all ← planner.schemas
      Draft.each (fun schema => do
        let files ← planner.resolve .tableSeeds none (some schema) (some Name.wildcard)
        planner.planTableSeeds inlined files) (command.filterSchemas all)
  | some "cmd" =>
      match command.value? "cmd" with
      | some (.raw text) => .step (.shell "sh" ["-c", text])
      | _ => command.unknown
  | some "sql" => planner.planScript command
  | _ => command.unknown

end Rollout.Planner
