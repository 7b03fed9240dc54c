/-!
# Faults of a command line
-/

namespace AccessControl

inductive UsageError where
  | help
  | version
  | nothingGiven
  | missingCommand
  | unknownCommand
  | unknownArgument
  | missingArgument
  | invalidValue
  | surplusValue
  | repeated
deriving DecidableEq, Repr

namespace UsageError

def exitCode : UsageError → Nat
  | help | version => 0
  | _ => 2

def message : UsageError → String
  | help => "help is asked for"
  | version => "the version is asked for"
  | nothingGiven => "no command is given"
  | missingCommand => "a command is required"
  | unknownCommand => "the command is not known"
  | unknownArgument => "an argument is not known"
  | missingArgument => "a required argument is missing"
  | invalidValue => "an option lacks a value"
  | surplusValue => "a flag takes no value"
  | repeated => "an option is given twice"

end UsageError

end AccessControl
