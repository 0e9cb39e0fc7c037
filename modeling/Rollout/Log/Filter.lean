import Rollout.Log.Entry
import Rollout.Text.Pieces

/-!
Filters of the log. A filter is spelled as directives with commas between them, each of which
sets a threshold for the parts of the program whose names begin in some way, or for all.
-/

namespace Rollout

/-- Which entries are let through: those of a level and those that are more severe. -/
inductive Threshold where
  | off
  | error
  | warn
  | info
  | debug
  | trace
deriving DecidableEq, Repr

namespace Threshold

/-- The thresholds by their names; their numbers count up from zero. -/
def named : List (String × Threshold) :=
  [("off", off), ("error", error), ("warn", warn), ("info", info), ("debug", debug),
    ("trace", trace)]

/-- A threshold by its name, whose case does not count, or by its number. -/
def ofText? (text : String) : Option Threshold :=
  let found := named.zipIdx.find? fun ((name, _), number) =>
    name == text.map Char.toLower || toString number == text
  found.map (·.1.2)

def admits (threshold : Threshold) : LogLevel → Bool
  | .warn => threshold != off && threshold != error
  | .info => threshold == info || threshold == debug || threshold == trace

end Threshold

/-- A threshold for the parts of the program whose names begin with `target`. -/
structure LogDirective where
  target : String := ""
  threshold : Threshold
deriving DecidableEq, Repr

/-- The directives of a filter; what stands later counts if the targets are the same. -/
abbrev LogFilter := List LogDirective

namespace LogFilter

/-- The threshold behind the sign; there need not be one. -/
def thresholdOf? (text : String) : Option Threshold :=
  if text = "" then some .trace else Threshold.ofText? text

/-- What stands behind the name of a target: a threshold, or a condition that nothing in the
program ever meets. -/
def directivesOf? (target : String) : List Char → Option LogFilter
  | [] => some [⟨target, .trace⟩]
  | '=' :: rest =>
      (thresholdOf? (String.ofList rest)).map fun threshold => [⟨target, threshold⟩]
  | rest =>
      match Text.cutFirst ']' rest with
      | some (_, []) => some []
      | some (_, '=' :: rest) => (thresholdOf? (String.ofList rest)).map fun _ => []
      | _ => none

def canBegin (c : Char) : Bool := c.isAlphanum || c == '-' || c == ':' || c == '_' || c == '['

/-- The directive that a text spells; none if it can let nothing through. -/
def ofPiece? (piece : String) : Option LogFilter :=
  match piece.toList with
  | [] => some []
  | first :: rest =>
      if !canBegin first then none
      else match Threshold.ofText? piece with
        | some threshold => some [⟨"", threshold⟩]
        | none =>
            let name := (first :: rest).takeWhile fun c => c != '=' && c != '['
            directivesOf? (String.ofList name) ((first :: rest).drop name.length)

def ofText? (text : String) : Option LogFilter :=
  ((Text.splitAt ',' text).mapM ofPiece?).map List.flatten

/-- The threshold for a part of the program: that of the longest target that its name begins
with. -/
def threshold (filter : LogFilter) (origin : LogOrigin) : Threshold :=
  let meant := filter.filter fun directive =>
    directive.target.toList.isPrefixOf origin.name.toList
  let longest := meant.foldl (fun best directive =>
    match best with
    | none => some directive
    | some other =>
        if directive.target.length < other.target.length then best else some directive)
    (none : Option LogDirective)
  (longest.map (·.threshold)).getD .off

def admits (filter : LogFilter) (entry : LogEntry) : Bool :=
  (filter.threshold entry.origin).admits entry.level

def lines (filter : LogFilter) (log : List LogEntry) : String :=
  String.join ((log.filter filter.admits).map LogEntry.line)

end LogFilter

end Rollout
