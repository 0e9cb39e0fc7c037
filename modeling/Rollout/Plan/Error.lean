import Rollout.Layout
import Rollout.ParseError
import Rollout.Registry

/-!
Why there is no plan for a command; one reason is a transaction command in a state that does not
allow it.
-/

namespace Rollout

inductive TransactionError where
  /-- Transactions are opened and closed automatically. -/
  | owned (command : String)
  | alreadyOpen
  | notOpen
deriving DecidableEq, Repr

def TransactionError.message : TransactionError → String
  | owned command =>
      s!"'{command}' is not allowed while auto-transaction mode owns the transaction"
  | alreadyOpen => "a transaction is already open"
  | notOpen => "no transaction is open"

inductive PlanError where
  /-- No file matches any of the patterns that were tried. -/
  | noMatch (command : String) (patterns : List String)
  /-- The filter leaves no schema in which to try a pattern. -/
  | noSchemas (command filter : String)
  | unknownCommand (command : String)
  | malformedName (command name : String)
  | missingList (command : String)
  | unsupportedSeed (path : String)
  | nestedRef (file : String)
  | tooDeep (file : String) (limit : Nat)
  | nestedParse (file : String) (error : ParseError)
  | noDatabase (command : String)
  | transaction (error : TransactionError)
  | missingValue (error : MissingValue)
  | source (error : SourceError)
  | registry (error : RegistryError)
  | database (error : DatabaseError)
deriving DecidableEq, Repr

def PlanError.message : PlanError → String
  | noMatch command patterns =>
      s!"nothing matched '{command}'; tried: " ++ ", ".intercalate patterns
  | noSchemas command filter =>
      s!"nothing matched '{command}': no source schema is left by '{filter}'"
  | unknownCommand command => s!"unknown command '{command}'"
  | malformedName command name => s!"'{command}': malformed name '{name}', expected schema.item"
  | missingList command =>
      s!"'{command}': a comma-delimited list of schema.table or schema.view names is required"
  | unsupportedSeed path => s!"unsupported seed file '{path}'"
  | nestedRef file => s!"{file}: nested commands may not carry a source ref"
  | tooDeep file limit => s!"{file}: ddsl files nest deeper than {limit} levels"
  | nestedParse file error => s!"{file}: {error.message}"
  | noDatabase command => s!"'{command}' needs a database connection"
  | transaction error => error.message
  | missingValue error => error.message
  | source error => error.message
  | registry error => error.message
  | database error => error.message

end Rollout
