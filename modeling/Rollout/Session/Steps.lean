import Rollout.Session.Basic

/-!
Running single steps. In a dry run every effect is logged instead of made; what a list shows is
no effect.
-/

namespace Rollout.Session

variable {State : Type}

/-- The result of a step, and the session after it. -/
abbrev Result (State Value : Type) := Except RunError Value × Session State

/-- Logs a command and enters it into the audit. That the audit cannot be kept up does not stop
a run. -/
def runCommand (database : Database State) (world : World) (text : String)
    (session : Session State) : Result State Unit :=
  let session := session.info (session.indent ++ text)
  if session.context.dryRun then (.ok (), session)
  else
    let (user, session) := session.call database .currentUser
    let entry : AuditEntry := {
      command := text
      executedAt := world.clock
      databaseUser := user.toOption.join
      systemUser := world.systemUser }
    match session.call database (.recordAudit entry) with
    | (.ok (), session) => (.ok (), session)
    | (.error error, session) =>
        (.ok (), session.warn "failed to record audit entry"
          [("error", .plain error.message), ("command", .quoted text)])

/-- Reads a file of the source tree that it was found in. -/
def readFile (world : World) (file : FileRef) (session : Session State) : Result State String :=
  match session.tree world file.ref with
  | (.error error, session) => (.error (.registry error), session)
  | (.ok tree, session) =>
      (((tree.snapshot world.workspace).read file.path).mapError .source, session)

/-- A local file with what a file of the source tree holds. -/
def localFile (world : World) (file : FileRef) (session : Session State) :
    Result State LocalFile :=
  match session.tree world file.ref with
  | (.error error, session) => (.error (.registry error), session)
  | (.ok tree, session) =>
      (((tree.snapshot world.workspace).localFile file.path).mapError .source, session)

def executeSql (database : Database State) (origin sql : String) (session : Session State) :
    Result State Unit :=
  if session.context.dryRun then
    (.ok (), session.dryRun s!"execute {origin} ({sql.utf8ByteSize} bytes)")
  else
    match session.call database (.exec sql) with
    | (.ok (), session) => (.ok (), session)
    | (.error error, session) => (.error (.sql origin error), session)

def executeFile (database : Database State) (world : World) (file : FileRef)
    (session : Session State) : Result State Unit :=
  if session.context.dryRun then
    (.ok (), session.dryRun s!"execute sql file {file.written}")
  else
    match session.readFile world file with
    | (.error error, session) => (.error error, session)
    | (.ok sql, session) => session.executeSql database file.written sql

def logLines (level : LogLevel) (text : String) (session : Session State) : Session State :=
  let indent := session.indent
  (Text.lines text).foldl
    (fun session line => session.logged { level, message := s!"{indent}| {line}" }) session

/-- The environment of programs tells them the source and the database. -/
def shellVariables (context : Context) : List (String × String) :=
  [("DDSL_SOURCE", context.source), ("DDSL_DATABASE", context.database)].filterMap
    fun (name, location) => location.map fun location => (name, location.written)

def runProgram (world : World) (program : String) (arguments : List String)
    (script : Option Content) (session : Session State) : Result State Unit :=
  let shown := " ".intercalate (program :: arguments)
  if session.context.dryRun then (.ok (), session.dryRun s!"run shell {shown}")
  else
    let environment := shellVariables session.context ++ world.environment
    match world.execute { program, arguments, script, environment } with
    | .notStarted fault => (.error (.notStarted shown fault), session)
    | .ended status output errors =>
        let session := session.logLines .info output
        if status.succeeded then (.ok (), session.logLines .warn errors)
        else (.error (.shell shown status (Text.trimmed errors)), session)

def runShellFile (world : World) (file : FileRef) (session : Session State) :
    Result State Unit :=
  if session.context.dryRun then
    (.ok (), session.dryRun s!"run shell script {file.written}")
  else
    match session.localFile world file with
    | (.error error, session) => (.error error, session)
    | (.ok found, session) => session.runProgram world "sh" [found.path] (some found.content)

def loadCsv (database : Database State) (world : World) (file : FileRef)
    (schema table : String) (session : Session State) : Result State Unit :=
  if session.context.dryRun then
    (.ok (), session.dryRun s!"import {file.written} into {schema}.{table}")
  else
    match session.localFile world file with
    | (.error error, session) => (.error error, session)
    | (.ok found, session) =>
        match session.call database (.loadCsv found schema table {}) with
        | (.error error, session) => (.error (.load file.written error), session)
        | (.ok rows, session) =>
            let message := s!"{session.indent}imported {file.written} into {schema}.{table}"
            let fields : List (String × LogValue) := [("rows", .plain s!"{rows}")]
            (.ok (), session.logged { level := .info, message, fields })

/-- Opens a transaction, unless one has been opened. -/
def begin (database : Database State) (session : Session State) : Result State Unit :=
  if session.context.inTransaction then (.error (.transaction .alreadyOpen), session)
  else if session.context.dryRun then
    (.ok (), (session.dryRun "begin transaction").setTransaction true)
  else
    match session.call database .begin with
    | (.error error, session) => (.error (.database error), session)
    | (.ok (), session) => (.ok (), session.setTransaction true)

def commit (database : Database State) (session : Session State) : Result State Unit :=
  if !session.context.inTransaction then (.error (.transaction .notOpen), session)
  else if session.context.dryRun then
    (.ok (), (session.dryRun "commit transaction").setTransaction false)
  else
    match session.call database .commit with
    | (.error error, session) => (.error (.database error), session)
    | (.ok (), session) => (.ok (), session.setTransaction false)

def rollback (database : Database State) (session : Session State) : Result State Unit :=
  if !session.context.inTransaction then (.error (.transaction .notOpen), session)
  else if session.context.dryRun then
    (.ok (), (session.dryRun "rollback transaction").setTransaction false)
  else
    match session.call database .rollback with
    | (.error error, session) => (.error (.database error), session)
    | (.ok (), session) => (.ok (), (session.info "transaction rolled back").setTransaction false)

def enterFile (file : FileRef) (session : Session State) : Session State :=
  let session := session.info s!"{session.indent}> {file.written}"
  session.withContext { session.context with depth := session.context.depth + 1 }

def leaveFile (file : FileRef) (session : Session State) : Session State :=
  let session := session.withContext { session.context with depth := session.context.depth - 1 }
  session.info s!"{session.indent}< {file.written}"

def foreignKeyRow (key : ForeignKey) : List String :=
  [key.childSchema, key.childTable, key.childColumn, key.parentSchema, key.parentTable,
    key.parentColumn]

def itemRow (item : SchemaItem) : List String := [item.schema, item.name, item.kind.name]

/-- The items of the schemas, one schema after the other. -/
def listItems (database : Database State) (kind : Option ItemKind) :
    List String → Session State → Result State (List SchemaItem)
  | [], session => (.ok [], session)
  | schema :: rest, session =>
      match session.call database (.schemaItems schema kind) with
      | (.error error, session) => (.error (.database error), session)
      | (.ok items, session) =>
          let (more, session) := listItems database kind rest session
          (more.map (items ++ ·), session)

def listTable (database : Database State) (kind : ListKind) (schemas : List String)
    (session : Session State) : Result State Table :=
  match kind with
  | .schemas => (.ok { headers := ["schema"], rows := schemas.map ([·]) }, session)
  | .foreignKeys =>
      match session.call database .foreignKeys with
      | (.error error, session) => (.error (.database error), session)
      | (.ok keys, session) =>
          let shown := keys.filter fun key => schemas.contains key.childSchema
          let headers := ["child_schema", "child_table", "child_column", "parent_schema",
            "parent_table", "parent_column"]
          (.ok { headers, rows := shown.map foreignKeyRow }, session)
  | kind =>
      let (items, session) := session.listItems database kind.itemKind? schemas
      (items.map fun items =>
        { headers := ["schema", "name", "kind"], rows := items.map itemRow }, session)

def write (world : World) (text : String) (session : Session State) : Result State Unit :=
  match world.sinkFault with
  | some fault => (.error (.output fault), session)
  | none => (.ok (), { session with output := session.output ++ text })

def list (database : Database State) (world : World) (kind : ListKind)
    (schemas : List String) (session : Session State) : Result State Unit :=
  match session.listTable database kind schemas with
  | (.error error, session) => (.error error, session)
  | (.ok table, session) =>
      match table.written session.context.format with
      | .error ragged => (.error (.output ragged.message), session)
      | .ok text => session.write world text

def runStep (database : Database State) (world : World) (step : Step)
    (session : Session State) : Result State Unit :=
  match step with
  | .runCommand text => session.runCommand database world text
  | .execFile file => session.executeFile database world file
  | .execScript sql => session.executeSql database "sql script" sql
  | .shellFile file => session.runShellFile world file
  | .shell program arguments => session.runProgram world program arguments none
  | .loadCsv file schema table => session.loadCsv database world file schema table
  | .begin => session.begin database
  | .commit => session.commit database
  | .rollback => session.rollback database
  | .enterFile file => (.ok (), session.enterFile file)
  | .leaveFile file => (.ok (), session.leaveFile file)
  | .list kind schemas => session.list database world kind schemas

end Rollout.Session
