import Rollout.Settings.Basic
import Rollout.Workspace
import Rollout.Yaml.Reader
import Rollout.Yaml.Writer

/-!
Settings in files.
-/

namespace Rollout.Settings

/-- A text that may be left out: what reads as nothing leaves it out, unless it is quoted. -/
def textOf? : Yaml.Node → Option (Option String)
  | .scalar false _ text => some (some text)
  | .scalar true (some tag) text =>
      if tag = "tag:yaml.org,2002:null" then
        if Yaml.nullWords.contains text then some none else none
      else some (some text)
  | .scalar true none text =>
      if text = "" ∨ text ∈ Yaml.nullWords then some none else some (some text)
  | _ => none

def flagOf? : Yaml.Node → Option Bool
  | .scalar true _ text =>
      if Yaml.trueWords.contains text then some true
      else if Yaml.falseWords.contains text then some false
      else none
  | _ => none

/-- A format by its name, or by a tag of its own with nothing behind it. -/
def formatOf? : Yaml.Node → Option Table.Format
  | .scalar _ tag text =>
      match tag.map String.toList with
      | some ('!' :: name) =>
          if text = "" ∨ text ∈ Yaml.nullWords then Table.Format.ofName? (String.ofList name)
          else none
      | _ => Table.Format.ofName? text
  | _ => none

def set? (settings : Settings) (key : String) (value : Yaml.Node) : Option Settings :=
  match key with
  | "source" => (textOf? value).map fun source => { settings with source }
  | "database" => (textOf? value).map fun database => { settings with database }
  | "auto_transaction" =>
      (flagOf? value).map fun autoTransaction => { settings with autoTransaction }
  | "dry_run" => (flagOf? value).map fun dryRun => { settings with dryRun }
  | "format" => (formatOf? value).map fun format => { settings with format }
  | _ => some settings

/-- The keys that mean something; each may be there once. -/
def keys : List String := ["source", "database", "auto_transaction", "dry_run", "format"]

def ofEntries? : (seen : List String) → List (Yaml.Node × Yaml.Node) → Settings →
    Option Settings
  | _, [], settings => some settings
  | seen, (.scalar _ _ key, value) :: rest, settings =>
      if key ∈ keys ∧ key ∈ seen then none
      else match settings.set? key value with
        | none => none
        | some settings => ofEntries? (key :: seen) rest settings
  | _, _ :: _, _ => none

/-- The settings in a text. What is not there has its default. -/
def parse (text : String) : Except SettingsError Settings :=
  let found : Option Settings := match Yaml.read text with
    | none => none
    | some none => some {}
    | some (some (.record entries)) => ofEntries? [] entries {}
    | some (some (.scalar true _ "")) => some {}
    | some (some _) => none
  match found with
  | some settings => .ok settings
  | none => .error .malformed

def load (workspace : Workspace) (path : String) : Except SettingsError Settings :=
  match workspace.content path with
  | .ok (.text text) => parse text
  | .ok (.binary _) | .error .isADirectory => .error .malformed
  | .error fault => .error (.file fault)

def written (settings : Settings) : String :=
  let text (value : Option String) : String := match value with
    | some value => Yaml.scalar value
    | none => "null"
  let flag (value : Bool) : String := if value then "true" else "false"
  String.join [Yaml.entry "source" (text settings.source),
    Yaml.entry "database" (text settings.database),
    Yaml.entry "auto_transaction" (flag settings.autoTransaction),
    Yaml.entry "dry_run" (flag settings.dryRun), Yaml.entry "format" settings.format.name]

def save (workspace : Workspace) (path : String) (settings : Settings) :
    Except SettingsError Workspace :=
  (workspace.write path settings.written).mapError .file

end Rollout.Settings
