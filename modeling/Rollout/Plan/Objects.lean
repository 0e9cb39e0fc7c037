import Rollout.Plan.Planner

/-!
Planning to create, drop, grant or revoke. Listed names keep their order and resolved ones ascend;
what belongs to a created item follows it.
-/

namespace Rollout.Planner

/-- Schemas, each with its privileges after it when it is created. -/
def planSchemas (planner : Planner) (verb : Verb) (schemas : List String) : Draft Unit :=
  .each (fun schema => do
    if verb.isPrivileges then
      planner.emit .schemaPrivileges verb (some schema) none
    else
      let created ← planner.emitFound .schema verb (some schema) none
      if verb = .create ∧ created ≠ [] then
        planner.emit .schemaPrivileges verb (some schema) none) schemas

def attach (planner : Planner) (items : ItemClass) (schema item : String) : Draft Unit :=
  .each (fun kind => planner.emit kind .create (some schema) (some item)) items.attachments

def planForeignKeys (planner : Planner) (verb : Verb) (schemas : List String) : Draft Unit :=
  .each (fun schema => planner.emit .foreignKeys verb (some schema) none) schemas

/-- The items of a class that a schema holds: types are files, all others are folders. -/
def itemsOf (planner : Planner) (items : ItemClass) (schema : String) (found : List String) :
    Draft (List String) :=
  match items with
  | .type => .done ((found.filterMap Path.schemaItem?).map (·.2))
  | _ => planner.folderNames s!"schemas/{schema}/{items.directory}"

def planSchemaItems (planner : Planner) (verb : Verb) (items : ItemClass) (schema : String) :
    Draft Unit := do
  if verb.isPrivileges then
    planner.emit items.privileges verb (some schema) (some items.anyItem)
  else
    let found ← planner.emitFound items.primary verb (some schema) (some items.anyItem)
    if verb = .create ∧ found ≠ [] then
      let names ← planner.itemsOf items schema found
      Draft.each (planner.attach items schema) names

/-- All items of a class in each schema that the clause leaves. Foreign keys are created after
all tables and dropped before them. -/
def planAllItems (planner : Planner) (command : Command) (verb : Verb) (items : ItemClass) :
    Draft Unit := do
  let all ← planner.schemas
  let schemas := command.filterSchemas all
  if items = .table ∧ verb = .drop then planner.planForeignKeys verb schemas
  Draft.each (planner.planSchemaItems verb items) schemas
  if items = .table ∧ verb = .create then planner.planForeignKeys verb schemas

def attachFound (planner : Planner) (items : ItemClass) (found : List String) : Draft Unit :=
  .each (fun path =>
    match Path.schemaItem? path with
    | some (schema, item) => planner.attach items schema item
    | none => .done ()) found

def planListedItems (planner : Planner) (command : Command) (verb : Verb) (items : ItemClass) :
    Draft Unit :=
  .each (fun name => do
    let (schema, item) ← command.splitName name
    if verb.isPrivileges then
      planner.emit items.privileges verb (some schema) (some item)
    else
      let found ← planner.emitFound items.primary verb (some schema) (some item)
      if verb = .create then planner.attachFound items found) command.itemNames

/-- Files of the given kinds, on the listed tables or views. -/
def planOn (planner : Planner) (command : Command) (verb : Verb) (kinds : List FileKind) :
    Draft Unit :=
  if command.clause ≠ some .on ∨ command.itemNames = [] then
    .fail (.missingList command.text)
  else
    .each (fun name => do
      let (schema, item) ← command.splitName name
      Draft.each (fun kind => planner.emit kind verb (some schema) (some item)) kinds)
      command.itemNames

/-- Plans to create, drop, grant or revoke what the object of the command names. -/
def planObjects (planner : Planner) (command : Command) (verb : Verb) : Draft Unit :=
  match command.object with
  | none => command.unknown
  | some "database" =>
      let kind := if verb.isPrivileges then FileKind.databasePrivileges else .database
      planner.emit kind verb none none
  | some "roles" => planner.emit .roles verb none none
  | some "extensions" => planner.emit .extensions verb none none
  | some "foreign-keys" => do
      let all ← planner.schemas
      planner.planForeignKeys verb all
  | some "schemas" => do
      let all ← planner.schemas
      planner.planSchemas verb (command.filterSchemas all)
  | some "schema" => planner.planSchemas verb command.schemaNames
  | some "indexes" => planner.planOn command verb [.tableIndexes, .viewIndexes]
  | some "constraints" => planner.planOn command verb [.constraints]
  | some "triggers" => planner.planOn command verb [.triggers]
  | some object =>
      match ItemClass.ofObject? object with
      | some (items, true) => planner.planAllItems command verb items
      | some (items, false) => planner.planListedItems command verb items
      | none => command.unknown

end Rollout.Planner
