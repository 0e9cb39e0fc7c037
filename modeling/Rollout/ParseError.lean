/-!
Why a text is not a sequence of commands.
-/

namespace Rollout

inductive ParseError where
  | unknownCommand (command : String) (line : Nat)
  | unexpectedWord (word after expected : String) (line : Nat)
  | incomplete (command expected : String) (line : Nat)
  | missingArgument (command argument : String) (line : Nat)
  | malformedName (name reason : String) (line : Nat)
  | unterminatedLiteral (line : Nat)
  | emptyRef (line : Nat)
deriving DecidableEq, Repr

namespace ParseError

def line : ParseError → Nat
  | unknownCommand _ line | unexpectedWord _ _ _ line | incomplete _ _ line
  | missingArgument _ _ line | malformedName _ _ line | unterminatedLiteral line
  | emptyRef line => line

def message : ParseError → String
  | unknownCommand command line => s!"line {line}: unknown command '{command}'"
  | unexpectedWord word after expected line =>
      s!"line {line}: unexpected '{word}' after '{after}', expected one of: {expected}"
  | incomplete command expected line =>
      s!"line {line}: incomplete command '{command}', expected one of: {expected}"
  | missingArgument command argument line => s!"line {line}: '{command}' requires <{argument}>"
  | malformedName name reason line => s!"line {line}: malformed name '{name}': {reason}"
  | unterminatedLiteral line => s!"line {line}: unterminated raw literal"
  | emptyRef line => s!"line {line}: empty source ref"

end ParseError

end Rollout
