/-!
# Command-line arguments

The arguments of a command are options, which it knows by name and which may have a value, and operands.
A library sorts them.
-/

namespace EnvAudit.CommandLine

/-- Whether an option has a value. -/
inductive Arity
  | flag
  | value
  /-- The next argument is the value, unless there is none or it looks like an option. -/
  | optionalValue
deriving Repr, DecidableEq

/-- An option that a command knows. -/
structure OptionSpec where
  /-- The name by which the command asks for it, which is also its long name. -/
  name : String
  letter : Option Char := none
  arity : Arity := .value
deriving Repr, DecidableEq

/-- An option as it was given. -/
structure GivenOption where
  name : String
  value : Option String
deriving Repr, DecidableEq

/-- Why arguments are refused. -/
inductive UsageError
  | noArguments
  | noCommand
  | unknownCommand (name : String)
  | unknownOption (spelling : String)
  | missingValue (option : String)
  | unexpectedValue (option : String)
  | missingOperand
  | extraOperand (operand : String)
  | badChoice (text : String)
  | badPath (path : String)
deriving Repr, DecidableEq

def UsageError.message : UsageError → String
  | noArguments | noCommand => "A command is needed."
  | unknownCommand name => s!"There is no command '{name}'."
  | unknownOption spelling => s!"There is no option '{spelling}'."
  | missingValue option => s!"The option '{option}' needs a value."
  | unexpectedValue option => s!"The option '{option}' has no value."
  | missingOperand => "The command needs something to work on."
  | extraOperand operand => s!"The command has no use for '{operand}'."
  | badChoice text => s!"'{text}' is none of the choices."
  | badPath path => s!"The path '{path}' cannot be used."

/-- Arguments, sorted into options and operands. -/
structure Arguments where
  options : List GivenOption := []
  operands : List String := []
deriving Repr, DecidableEq

namespace Arguments

def has (a : Arguments) (name : String) : Bool := a.options.any (·.name == name)

/-- The last value that was given for an option. -/
def last? (a : Arguments) (name : String) : Option GivenOption :=
  a.options.reverse.find? (·.name == name)

def all (a : Arguments) (name : String) : List String :=
  (a.options.filter (·.name == name)).filterMap (·.value)

end Arguments

/-- What sorts arguments. -/
class ArgumentParser where
  /-- The arguments, sorted by the options that there are.  Unless options may stand between operands,
  the first operand ends them. -/
  read : (specs : List OptionSpec) → (mixed : Bool) → (args : List String) →
    Except UsageError Arguments

end EnvAudit.CommandLine
