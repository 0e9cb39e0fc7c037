import Rollout.Grammar.Basic

/-!
The built-in grammar, as an outline of keywords.
-/

namespace Rollout.Grammar

def schemaNames : Slot := ⟨"schema-names", "Comma-delimited list of schema names", .names⟩

def seedNames : Slot := ⟨"seed-names", "Comma-delimited list of seed names", .names⟩

def itemNames (description : String) : Slot :=
  ⟨"item-names", "Comma-delimited list of " ++ description ++ " names", .qualifiedNames⟩

def sqlText : Slot := ⟨"sql", "Backtick-quoted SQL or a source-relative file", .sqlText⟩

def shellText : Slot := ⟨"cmd", "Backtick-quoted shell text", .shellText⟩

def object (level : Nat) (name description : String) (slots : List Slot) : Keyword :=
  ⟨name, description, level, { primary := true }, slots⟩

def option (level : Nat) (name description : String) (slots : List Slot) : Keyword :=
  ⟨name, description, level, { optional := true }, slots⟩

def verb (name description : String) (traits : Traits) (slots : List Slot) : Keyword :=
  ⟨name, description, 0, { traits with root := true }, slots⟩

def schemaFilter (level : Nat) : List Keyword :=
  [option level "in" "Only schemas in the list" [schemaNames],
    option level "except" "Skip schemas" [],
    ⟨"in", "Schemas in the list", level + 1, {}, [schemaNames]⟩]

def seedFilter (level : Nat) : List Keyword :=
  [option level "with" "Only the listed seeds" [seedNames],
    option level "without" "Skip the listed seeds" [seedNames]]

def everySchema (level : Nat) (description : String) : List Keyword :=
  [object level "schemas" description [],
    option (level + 1) "except" "Skip the listed schemas" [schemaNames]]

/-- The plural and the singular form of a class of items. -/
def itemClass (level : Nat) (capital plural singular : String) : List Keyword :=
  [object level plural (capital ++ " of every or of filtered schemas") []] ++
    schemaFilter (level + 1) ++
    [object level singular ("The listed " ++ plural) [itemNames ("schema." ++ singular)]]

def itemClasses (level : Nat) : List Keyword :=
  itemClass level "Tables" "tables" "table" ++ itemClass level "Views" "views" "view" ++
    itemClass level "Functions" "functions" "function" ++
    itemClass level "Procedures" "procedures" "procedure" ++
    itemClass level "Types" "types" "type"

def schemaForms (level : Nat) : List Keyword :=
  everySchema level "Every schema in the source tree" ++
    [object level "schema" "The listed schemas" [schemaNames]]

/-- Parts of tables or views, with the clause `on`. -/
def itemPart (name description target items : String) : List Keyword :=
  [object 1 name description [], ⟨"on", target, 2, {}, [itemNames items]⟩]

def createOutline : List Keyword :=
  [verb "create" "Create database objects" {} [],
    object 1 "database" "The database itself" [],
    object 1 "roles" "Database roles" [],
    object 1 "extensions" "Database extensions" [],
    object 1 "foreign-keys" "Foreign keys of every schema" []] ++
  schemaForms 1 ++ itemClasses 1 ++
  itemPart "indexes" "Indexes of tables and views" "Target objects"
    "schema.table or schema.view" ++
  itemPart "constraints" "Constraints of tables" "Target tables" "schema.table" ++
  itemPart "triggers" "Triggers of tables" "Target tables" "schema.table"

def grantOutline : List Keyword :=
  [verb "grant" "Grant privileges" {} [],
    ⟨"privileges", "Object privileges", 1, {}, []⟩,
    ⟨"on", "Target objects", 2, {}, []⟩,
    object 3 "database" "The database itself" []] ++
  schemaForms 3 ++ itemClasses 3

def seedOutline : List Keyword :=
  [verb "seed" "Load seed data" {} [],
    object 1 "database" "Database-wide seeds" []] ++ seedFilter 2 ++
  [object 1 "schema" "Seeds of the listed schemas" [schemaNames]] ++ seedFilter 2 ++
  everySchema 1 "Seeds of every schema" ++
  [object 1 "table" "Seeds of the listed tables" [itemNames "schema.table"]] ++ seedFilter 2 ++
  [object 1 "tables" "Table seeds of every or of filtered schemas" []] ++ schemaFilter 2 ++
  [⟨"cmd", "Run a shell command", 1, { primary := true, extArgs := true }, [shellText]⟩,
    ⟨"sql", "Run SQL", 1, { primary := true, extArgs := true }, [sqlText]⟩]

def sqlOutline : List Keyword :=
  [verb "sql" "Run SQL text or a source file" { primary := true, extArgs := true } [sqlText]]

def listing (name description : String) : List Keyword :=
  object 1 name description [] :: schemaFilter 2

def listOutline : List Keyword :=
  [verb "list" "Show objects of the live database" { nonExec := true } []] ++
  listing "schemas" "Schema names" ++
  listing "foreign-keys" "Foreign keys of every schema" ++
  listing "schema-items" "Tables, views, functions, procedures and types" ++
  listing "tables" "Tables" ++ listing "views" "Views" ++ listing "functions" "Functions" ++
  listing "procedures" "Procedures" ++ listing "types" "Types"

/-- A transaction command, with the word `transaction` if one likes. -/
def transaction (name description : String) : List Keyword :=
  [verb name description {} [], option 1 "transaction" "Optional noise word" []]

def builtinOutline : List Keyword :=
  createOutline ++ grantOutline ++ seedOutline ++ sqlOutline ++ listOutline ++
  transaction "begin" "Open a transaction" ++
  transaction "commit" "Commit the open transaction" ++
  transaction "rollback" "Roll back the open transaction"

def builtin : Grammar := (ofOutline builtinOutline).addTwins

end Rollout.Grammar
