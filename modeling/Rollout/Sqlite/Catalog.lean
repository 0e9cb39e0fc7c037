import Rollout.Sqlite.Execute
import Rollout.Text.Ordered

/-!
The catalog: which schemas there are, and which tables, views and references they hold.
-/

namespace Rollout.Sqlite

/-- Names that the catalog leaves out: "sqlite" in letters of either case, and at least one more
character. -/
def isInternal (name : String) : Bool :=
  "sqlite".toList.isPrefixOf (name.toList.map Char.toLower) && 6 < name.toList.length

namespace Contents

/-- The names of tables and views, with what they are. -/
def objects (contents : Contents) : List (String × ItemKind) :=
  contents.tables.map (fun table => (table.name, ItemKind.table)) ++
    contents.views.map fun view => (view.name, ItemKind.view)

/-- Is the item shown in the catalog of a schema with the name? -/
def isListed (schema name : String) : Bool :=
  !isInternal name && !(schema == mainSchema && isBookkeeping name)

/-- What the catalog of a schema shows, by name: all of it, or what is of one kind. -/
def items (contents : Contents) (schema : String) (kind : Option ItemKind) : List SchemaItem :=
  let listed := contents.objects.filter fun (name, found) =>
    isListed schema name && (kind == none || kind == some found)
  let ordered := listed.mergeSort fun first second => decide (first.1 ≤ second.1)
  ordered.map fun (name, kind) => { schema, name, kind }

/-- The references of tables that the catalog shows. A reference stays in its schema. -/
def references (contents : Contents) (schema : String) : List ForeignKey :=
  let listed := contents.tables.filter fun table => isListed schema table.name
  listed.flatMap fun table => table.references.map fun reference => {
    childSchema := schema
    childTable := table.name
    childColumn := reference.column
    parentSchema := schema
    parentTable := reference.parent
    parentColumn := reference.parentColumn.getD "" }

end Contents

/-- The parts of a reference in the order in which references are compared. -/
def keyParts (key : ForeignKey) : List String :=
  [key.childSchema, key.childTable, key.childColumn, key.parentSchema, key.parentTable,
    key.parentColumn]

/-- Does the first list come before the second, or are they equal? The first parts that differ
decide. -/
def partsAtMost : List String → List String → Bool
  | first :: firsts, second :: seconds =>
      if first = second then partsAtMost firsts seconds else decide (first < second)
  | [], _ => true
  | _ :: _, [] => false

namespace State

/-- The schemas but the temporary one, by name. -/
def schemaList (state : State) : List String :=
  let own := (state.connection.schemas.map (·.1)).filter (· != temporarySchema)
  Text.ascending (mainSchema :: own)

def schemaNames (state : State) : Except DatabaseError (List String) × State :=
  if !state.connection.isOpen then (.error closed, state) else (.ok state.schemaList, state)

/-- Schemas hold tables and views, and nothing of another kind. -/
def schemaItems (schema : String) (kind : Option ItemKind) (state : State) :
    Except DatabaseError (List SchemaItem) × State :=
  if !state.connection.isOpen then (.error closed, state)
  else if kind = some .function ∨ kind = some .procedure ∨ kind = some .type then
    (.ok [], state)
  else if !Identifier.isValid schema then
    (.error (InvalidIdentifier.asDriver ⟨schema⟩), state)
  else
    match state.schema? schema with
    | .error fault => (.error fault.asDriver, state)
    | .ok (some contents) => (.ok (contents.items schema kind), state.noteRead schema)
    | .ok none =>
        let fault : Fault := { text := s!"no such table: {schema}.sqlite_master" }
        (.error fault.asDriver, state)

def referencesOf : List String → State → Except Fault (List ForeignKey) × State
  | [], state => (.ok [], state)
  | schema :: rest, state =>
      match state.schema? schema with
      | .error fault => (.error fault, state)
      | .ok contents =>
          let found := (contents.map (·.references schema)).getD []
          let (more, state) := referencesOf rest (state.noteRead schema)
          (more.map (found ++ ·), state)

/-- The references of all schemas, in order. -/
def foreignKeys (state : State) : Except DatabaseError (List ForeignKey) × State :=
  if !state.connection.isOpen then (.error closed, state)
  else
    let (keys, state) := referencesOf state.schemaList state
    let ordered := keys.map fun keys =>
      keys.mergeSort fun first second => partsAtMost (keyParts first) (keyParts second)
    (ordered.mapError Fault.asDriver, state)

end State

end Rollout.Sqlite
