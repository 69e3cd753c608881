import EnvAudit.CommandLine.Arguments

/-!
# Sorting arguments

Arguments that begin with a hyphen are options, by a long name or as a run of letters; the others
are operands.  A long option can have its value after an equals sign, and a letter right behind it;
otherwise the next argument is the value.  After two hyphens all arguments are operands.
-/

namespace EnvAudit.CommandLine.Arguments

def looksLikeOption (arg : String) : Bool :=
  match arg.toList with
  | '-' :: _ :: _ => true
  | _ => false

def given (a : Arguments) (spec : OptionSpec) (value : Option String) : Arguments :=
  { a with options := a.options ++ [{ name := spec.name, value }] }

/-- The value of an option, taken from the arguments behind it, and those left over. -/
def takeValue (spec : OptionSpec) (rest : List String) :
    Except UsageError (Option String × List String) :=
  match spec.arity, rest with
  | .flag, _ => .ok (none, rest)
  | .value, [] => .error (.missingValue spec.name)
  | .value, next :: rest => .ok (some next, rest)
  | .optionalValue, [] => .ok (none, [])
  | .optionalValue, next :: more =>
    if looksLikeOption next then .ok (none, rest) else .ok (some next, more)

def readLetters (specs : List OptionSpec) (a : Arguments) (rest : List String) :
    List Char → Except UsageError (Arguments × List String)
  | [] => .ok (a, rest)
  | c :: letters =>
    match specs.find? (·.letter == some c) with
    | none => .error (.unknownOption (String.ofList ['-', c]))
    | some spec =>
      if spec.arity = .flag then readLetters specs (a.given spec none) rest letters
      else do
        let behind := if letters.isEmpty then rest else String.ofList letters :: rest
        let (value, rest) ← takeValue spec behind
        return (a.given spec value, rest)

/-- Reads an argument as a long option, if there is one of that name. -/
def readLong? (specs : List OptionSpec) (a : Arguments) (arg : String) (rest : List String) :
    Option (Except UsageError (Arguments × List String)) :=
  let name := arg.toList.takeWhile (· != '=')
  let value := (arg.toList.drop name.length).drop 1
  let hasValue := name.length != arg.length
  (specs.find? fun spec => "--" ++ spec.name == String.ofList name).map fun spec =>
    if hasValue && spec.arity == .flag then .error (.unexpectedValue spec.name)
    else do
      let behind := if hasValue then String.ofList value :: rest else rest
      let (value, rest) ← takeValue spec behind
      return (a.given spec value, rest)

/-- Sorts arguments.  Unless options may stand between operands, the first operand ends them. -/
def readFrom (specs : List OptionSpec) (mixed : Bool) : (fuel : Nat) → Arguments → List String →
    Except UsageError Arguments
  | 0, a, rest => .ok { a with operands := a.operands ++ rest }
  | _, a, [] => .ok a
  | fuel + 1, a, arg :: rest =>
    if arg = "--" then .ok { a with operands := a.operands ++ rest }
    else if looksLikeOption arg then
      match readLong? specs a arg rest with
      | some result => do
        let (a, rest) ← result
        readFrom specs mixed fuel a rest
      | none =>
        if arg.startsWith "--" then .error (.unknownOption arg)
        else do
          let (a, rest) ← readLetters specs a rest (arg.toList.drop 1)
          readFrom specs mixed fuel a rest
    else if mixed then readFrom specs mixed fuel { a with operands := a.operands ++ [arg] } rest
    else .ok { a with operands := a.operands ++ arg :: rest }

def read (specs : List OptionSpec) (mixed : Bool) (args : List String) :
    Except UsageError Arguments :=
  readFrom specs mixed (args.foldl (fun total arg => total + arg.length + 1) 1) {} args

end EnvAudit.CommandLine.Arguments
