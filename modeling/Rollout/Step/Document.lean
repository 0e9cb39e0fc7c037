import Rollout.Step
import Rollout.Text.Json

/-!
Steps as documents.
-/

namespace Rollout

def FileRef.document (file : FileRef) : Text.Json :=
  .record [("path", .text file.path), ("source_ref", .textOrNull file.ref)]

namespace Step

def typeName : Step → String
  | runCommand _ => "run-ddsl"
  | execFile _ => "exec-sql-file"
  | execScript _ => "exec-sql-script"
  | shellFile _ => "exec-shell-file"
  | shell _ _ => "exec-shell"
  | loadCsv _ _ _ => "import-csv"
  | begin => "begin"
  | commit => "commit"
  | rollback => "rollback"
  | enterFile _ => "enter-ddsl-file"
  | leaveFile _ => "leave-ddsl-file"
  | list _ _ => "list"

def fields : Step → List (String × Text.Json)
  | runCommand text => [("text", .text text)]
  | execFile file | shellFile file | enterFile file | leaveFile file => [("file", file.document)]
  | execScript sql => [("sql", .text sql)]
  | shell program arguments =>
      [("command", .text program), ("args", .list (arguments.map Text.Json.text))]
  | loadCsv file schema table =>
      [("file", file.document), ("schema", .text schema), ("table", .text table)]
  | begin | commit | rollback => []
  | list kind schemas =>
      [("kind", .text kind.name), ("schemas", .list (schemas.map Text.Json.text))]

def document (step : Step) : Text.Json := .record (("type", .text step.typeName) :: step.fields)

end Step

end Rollout
