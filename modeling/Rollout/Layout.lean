import Rollout.Text.Pieces

/-!
The layout of a source tree: which file holds what. Each kind of file has a path template with
places for a schema, an item and a verb; filled in, it is a pattern that files are matched
against.
-/

namespace Rollout

inductive Verb where
  | create
  | drop
  | grant
  | revoke
deriving DecidableEq, Repr

namespace Verb

def name : Verb → String
  | create => "create"
  | drop => "drop"
  | grant => "grant"
  | revoke => "revoke"

def ofName? : String → Option Verb
  | "create" => some create
  | "drop" => some drop
  | "grant" => some grant
  | "revoke" => some revoke
  | _ => none

def privileges : Verb → Verb
  | create | grant => grant
  | drop | revoke => revoke

/-- Is the verb about privileges only? -/
def isPrivileges : Verb → Bool
  | grant | revoke => true
  | create | drop => false

end Verb

inductive Placeholder where
  | schema
  | item
  | verb
deriving DecidableEq, Repr

def Placeholder.name : Placeholder → String
  | schema => "schema"
  | item => "item"
  | verb => "verb"

def Placeholder.token (place : Placeholder) : List Char :=
  '\x7b' :: (place.name.toList ++ ['\x7d'])

inductive FileKind where
  | database
  | databasePrivileges
  | roles
  | extensions
  | schema
  | schemaPrivileges
  | table
  | tablePrivileges
  | constraints
  | tableIndexes
  | viewIndexes
  | triggers
  | foreignKeys
  | view
  | viewPrivileges
  | function
  | functionPrivileges
  | procedure
  | procedurePrivileges
  | type
  | typePrivileges
  | databaseSeeds
  | schemaSeeds
  | tableSeeds
deriving DecidableEq, Repr

structure MissingValue where
  template : String
  place : Placeholder
deriving DecidableEq, Repr

def MissingValue.message (missing : MissingValue) : String :=
  s!"pattern '{missing.template}' needs a value for \x7b{missing.place.name}\x7d"

namespace FileKind

/-- The path template, with places in braces. -/
def template : FileKind → String
  | database | databasePrivileges => "database.\x7bverb\x7d.sql"
  | roles => "roles.\x7bverb\x7d.sql"
  | extensions => "extensions.\x7bverb\x7d.sql"
  | schema => "schemas/\x7bschema\x7d/schema.\x7bverb\x7d.sql"
  | schemaPrivileges => "schemas/\x7bschema\x7d/privileges.\x7bverb\x7d.sql"
  | table => "schemas/\x7bschema\x7d/tables/\x7bitem\x7d/table.\x7bverb\x7d.sql"
  | tablePrivileges => "schemas/\x7bschema\x7d/tables/\x7bitem\x7d/privileges.\x7bverb\x7d.sql"
  | constraints => "schemas/\x7bschema\x7d/tables/\x7bitem\x7d/constraints.\x7bverb\x7d.sql"
  | tableIndexes => "schemas/\x7bschema\x7d/tables/\x7bitem\x7d/indexes.\x7bverb\x7d.sql"
  | viewIndexes => "schemas/\x7bschema\x7d/views/\x7bitem\x7d/indexes.\x7bverb\x7d.sql"
  | triggers => "schemas/\x7bschema\x7d/tables/\x7bitem\x7d/triggers.\x7bverb\x7d.sql"
  | foreignKeys => "schemas/\x7bschema\x7d/tables/?/foreign-keys.\x7bverb\x7d.sql"
  | view => "schemas/\x7bschema\x7d/views/\x7bitem\x7d/view.\x7bverb\x7d.sql"
  | viewPrivileges => "schemas/\x7bschema\x7d/views/\x7bitem\x7d/privileges.\x7bverb\x7d.sql"
  | function => "schemas/\x7bschema\x7d/functions/\x7bitem\x7d/function.\x7bverb\x7d.sql"
  | functionPrivileges =>
      "schemas/\x7bschema\x7d/functions/\x7bitem\x7d/privileges.\x7bverb\x7d.sql"
  | procedure => "schemas/\x7bschema\x7d/procedures/\x7bitem\x7d/procedure.\x7bverb\x7d.sql"
  | procedurePrivileges =>
      "schemas/\x7bschema\x7d/procedures/\x7bitem\x7d/privileges.\x7bverb\x7d.sql"
  | type | typePrivileges => "schemas/\x7bschema\x7d/types/\x7bitem\x7d.\x7bverb\x7d.sql"
  | databaseSeeds => "seeds/*.\x7bsql,sh,ddsl\x7d"
  | schemaSeeds => "schemas/\x7bschema\x7d/seeds/*.\x7bsql,csv,sh,ddsl\x7d"
  | tableSeeds => "schemas/\x7bschema\x7d/tables/\x7bitem\x7d/seeds/*.\x7bcsv,sql\x7d"

/-- Kinds of files that hold privileges, for which the verb is always one on privileges. -/
def isPrivileges : FileKind → Bool
  | databasePrivileges | schemaPrivileges | tablePrivileges | viewPrivileges
  | functionPrivileges | procedurePrivileges | typePrivileges => true
  | _ => false

/-- Puts a value in every place of one name, if the text has such a place at all. -/
def fill (template : String) (place : Placeholder) (value : Option String) (text : List Char) :
    Except MissingValue (List Char) :=
  if Text.occurs place.token text then
    match value with
    | none => .error ⟨template, place⟩
    | some value => .ok (Text.replaceAll place.token value.toList text)
  else .ok text

/-- The pattern of a kind of file: its template with the schema filled in first, then the item,
then the verb. -/
def render (kind : FileKind) (verb : Option Verb) (schema item : Option String) :
    Except MissingValue String :=
  let template := kind.template
  match fill template .schema schema template.toList with
  | .error missing => .error missing
  | .ok text =>
      match fill template .item item text with
      | .error missing => .error missing
      | .ok text =>
          (fill template .verb (verb.map Verb.name) text).map String.ofList

end FileKind

/-- Classes of schema items that have both a singular and a plural command. -/
inductive ItemClass where
  | table
  | view
  | function
  | procedure
  | type
deriving DecidableEq, Repr

namespace ItemClass

/-- The class an object keyword names, and whether it is the plural. -/
def ofObject? : String → Option (ItemClass × Bool)
  | "table" => some (table, false)
  | "tables" => some (table, true)
  | "view" => some (view, false)
  | "views" => some (view, true)
  | "function" => some (function, false)
  | "functions" => some (function, true)
  | "procedure" => some (procedure, false)
  | "procedures" => some (procedure, true)
  | "type" => some (type, false)
  | "types" => some (type, true)
  | _ => none

/-- The kind of file that creates or drops the item. -/
def primary : ItemClass → FileKind
  | table => .table
  | view => .view
  | function => .function
  | procedure => .procedure
  | type => .type

def privileges : ItemClass → FileKind
  | table => .tablePrivileges
  | view => .viewPrivileges
  | function => .functionPrivileges
  | procedure => .procedurePrivileges
  | type => .typePrivileges

/-- What is created along with an item, in this order. -/
def attachments : ItemClass → List FileKind
  | table => [.constraints, .tableIndexes, .tablePrivileges]
  | view => [.viewIndexes, .viewPrivileges]
  | function => [.functionPrivileges]
  | procedure => [.procedurePrivileges]
  | type => [.typePrivileges]

/-- The directory of a schema that holds the items of the class. -/
def directory : ItemClass → String
  | table => "tables"
  | view => "views"
  | function => "functions"
  | procedure => "procedures"
  | type => "types"

/-- What stands for every item of a schema: types are files, all other items directories. -/
def anyItem : ItemClass → String
  | type => "*"
  | _ => "?"

end ItemClass

end Rollout
