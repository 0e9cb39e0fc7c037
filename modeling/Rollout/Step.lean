import Rollout.Database

/-!
Steps: what a plan is made of. Each step carries just what running it takes.
-/

namespace Rollout

/-- A file of the source tree at the revision it was found in. -/
structure FileRef where
  path : String
  ref : Option String
deriving DecidableEq, Repr

def FileRef.written (file : FileRef) : String :=
  match file.ref with
  | some ref => file.path ++ "#" ++ ref
  | none => file.path

inductive ListKind where
  | schemas
  | foreignKeys
  | schemaItems
  | tables
  | views
  | functions
  | procedures
  | types
deriving DecidableEq, Repr

namespace ListKind

def name : ListKind → String
  | schemas => "schemas"
  | foreignKeys => "foreign-keys"
  | schemaItems => "schema-items"
  | tables => "tables"
  | views => "views"
  | functions => "functions"
  | procedures => "procedures"
  | types => "types"

def ofName? : String → Option ListKind
  | "schemas" => some schemas
  | "foreign-keys" => some foreignKeys
  | "schema-items" => some schemaItems
  | "tables" => some tables
  | "views" => some views
  | "functions" => some functions
  | "procedures" => some procedures
  | "types" => some types
  | _ => none

/-- The kind of items shown, if it is one. -/
def itemKind? : ListKind → Option ItemKind
  | tables => some .table
  | views => some .view
  | functions => some .function
  | procedures => some .procedure
  | types => some .type
  | schemas | foreignKeys | schemaItems => none

end ListKind

inductive Step where
  /-- The command that the steps after it come from; it is audited. -/
  | runCommand (text : String)
  | execFile (file : FileRef)
  | execScript (sql : String)
  | shellFile (file : FileRef)
  | shell (program : String) (arguments : List String)
  | loadCsv (file : FileRef) (schema table : String)
  | begin
  | commit
  | rollback
  | enterFile (file : FileRef)
  | leaveFile (file : FileRef)
  | list (kind : ListKind) (schemas : List String)
deriving DecidableEq, Repr

namespace Step

def isList : Step → Bool
  | list _ _ => true
  | _ => false

def file? : Step → Option FileRef
  | execFile file | shellFile file | loadCsv file _ _ | enterFile file | leaveFile file =>
      some file
  | _ => none

def written : Step → String
  | runCommand text => "ddsl: " ++ text
  | execFile file => "execute sql file " ++ file.written
  | execScript sql => s!"execute sql script ({sql.utf8ByteSize} bytes)"
  | shellFile file => "execute shell script " ++ file.written
  | shell program arguments => "execute shell " ++ program ++ " " ++ " ".intercalate arguments
  | loadCsv file schema table => s!"import csv {file.written} into {schema}.{table}"
  | begin => "begin transaction"
  | commit => "commit transaction"
  | rollback => "rollback transaction"
  | enterFile file => "enter ddsl file " ++ file.written
  | leaveFile file => "leave ddsl file " ++ file.written
  | list kind schemas => s!"list {kind.name} in [" ++ ", ".intercalate schemas ++ "]"

end Step

end Rollout
