import EnvAudit.CommandLine.Arguments
import EnvAudit.FileSystem.Basic
import EnvAudit.Severity

/-!
# Commands

The commands of the program and how they are read from its arguments.  Options in front of the
command say how much is told; those of the command follow its name.
-/

namespace EnvAudit.CommandLine

/-- How the result of a scan is written. -/
inductive ScanFormat
  | terminal
  | json
deriving Repr, DecidableEq

/-- What to scan and what to do with the result. -/
structure ScanOptions where
  path : Path
  format : ScanFormat := .terminal
  output : Option Path := none
  severity : Option Severity := none
  ruleFiles : List Path := []
  envFile : Option String := none
  failOn : Option Severity := none
  noColor : Bool := false
deriving Repr, DecidableEq

/-- A command. -/
inductive Command
  | scan (options : ScanOptions)
  | ignore (names : List String)
  | ignoreFiles (files : List String)
  | ignoreList
  | resetIgnore (force : Bool)
  | priority (level : Severity)
  | init (force : Bool)
deriving Repr, DecidableEq

/-- How much is told. -/
structure Loudness where
  verbose : Bool := false
  quiet : Bool := false
deriving Repr, DecidableEq

/-- What the arguments ask for. -/
inductive Request
  | version
  | help
  | run (loudness : Loudness) (command : Command)
deriving Repr, DecidableEq

/-- Why the arguments ask for nothing. -/
inductive RequestError
  | usage (cause : UsageError)
  | file (cause : FileError)
deriving Repr, DecidableEq

namespace Request

def refuse {α : Type} (cause : UsageError) : Except RequestError α := .error (.usage cause)

/-- The severity that an argument names; letter case does not matter. -/
def severity (text : String) : Except RequestError Severity :=
  match Severity.all.find? (·.name == Text.lowered text) with
  | some s => .ok s
  | none => refuse (.badChoice text)

def format (text : String) : Except RequestError ScanFormat :=
  match text with
  | "terminal" => .ok .terminal
  | "json" => .ok .json
  | _ => refuse (.badChoice text)

/-- A path at which something has to stand that can be read, and no directory unless these are
admitted. -/
def existingPath (fs : FileSystem) (dirs : Bool) (spelling : String) :
    Except RequestError Path :=
  if spelling.toList.contains '\x00' then .error (.file .nullCharacter)
  else
    match fs.locateSpelled spelling with
    | .ok (_, some (.dir _)) =>
      if dirs then .ok (.ofString spelling) else refuse (.badPath spelling)
    | .ok (_, some (.file _)) => .ok (.ofString spelling)
    | _ => refuse (.badPath spelling)

/-- A path at which nothing has to stand, and nothing that cannot be read. -/
def anyPath (fs : FileSystem) (spelling : String) : Except RequestError (Option Path) :=
  if spelling.toList.contains '\x00' then .error (.file .nullCharacter)
  else
    match fs.locateSpelled spelling with
    | .ok (_, some .locked) => refuse (.badPath spelling)
    | _ => .ok (if spelling = "" then none else some (.ofString spelling))

def helpOption : OptionSpec := { name := "help", arity := .flag }

def scanSpecs : List OptionSpec :=
  [ { name := "format", letter := some 'f' },
    { name := "output", letter := some 'o' },
    { name := "severity", letter := some 's' },
    { name := "rules", letter := some 'r' },
    { name := "to-env", arity := .optionalValue },
    { name := "fail-on" },
    { name := "no-color", arity := .flag },
    helpOption ]

def forceOption : OptionSpec := { name := "force", letter := some 'f', arity := .flag }

/-- The environment file that is added to unless another one is named. -/
def defaultEnvFile : String := ".env"

def takeScanOption (fs : FileSystem) (a : Arguments) (o : ScanOptions) (name : String) :
    Except RequestError ScanOptions := do
  let value := ((a.last? name).bind (·.value)).getD ""
  match name with
  | "format" => return { o with format := ← format value }
  | "output" => return { o with output := ← anyPath fs value }
  | "severity" => return { o with severity := some (← severity value) }
  | "fail-on" => return { o with failOn := some (← severity value) }
  | "rules" => return { o with ruleFiles := ← (a.all "rules").mapM (existingPath fs false) }
  | "to-env" =>
    let file := ((a.last? name).bind (·.value)).getD defaultEnvFile
    return { o with envFile := if file = "" then none else some file }
  | "no-color" => return { o with noColor := true }
  | _ => return o

def noMoreThan (count : Nat) (a : Arguments) : Except RequestError Unit :=
  match a.operands.drop count with
  | [] => .ok ()
  | extra :: _ => refuse (.extraOperand extra)

/-- Reads the arguments of the scan; the working directory is scanned unless a path is named. -/
def scan (fs : FileSystem) (a : Arguments) : Except RequestError Command := do
  let names := (a.options.map (·.name)).eraseDups
  let o ← names.foldlM (takeScanOption fs a) { path := ⟨.here, []⟩ }
  let path ← existingPath fs true (a.operands.head?.getD ".")
  noMoreThan 1 a
  return .scan { o with path }

def specsOf : String → Option (List OptionSpec)
  | "scan" => some scanSpecs
  | "ignore" | "ignore-files" | "ignore-list" | "priority" => some [helpOption]
  | "reset-ignore" | "init" => some [forceOption, helpOption]
  | _ => none

def command (fs : FileSystem) (name : String) (a : Arguments) : Except RequestError Command := do
  match name with
  | "scan" => scan fs a
  | "ignore" => if a.operands.isEmpty then refuse .missingOperand else return .ignore a.operands
  | "ignore-files" =>
    if a.operands.isEmpty then refuse .missingOperand else return .ignoreFiles a.operands
  | "ignore-list" =>
    noMoreThan 0 a
    return .ignoreList
  | "reset-ignore" =>
    noMoreThan 0 a
    return .resetIgnore (a.has "force")
  | "priority" =>
    match a.operands with
    | [] => refuse .missingOperand
    | level :: _ =>
      let level ← severity level
      noMoreThan 1 a
      return .priority level
  | "init" =>
    noMoreThan 0 a
    return .init (a.has "force")
  | _ => refuse (.unknownCommand name)

def programSpecs : List OptionSpec :=
  [ { name := "version", arity := .flag },
    { name := "verbose", letter := some 'v', arity := .flag },
    { name := "quiet", letter := some 'q', arity := .flag },
    helpOption ]

def read [ArgumentParser] (fs : FileSystem) (args : List String) : Except RequestError Request := do
  if args.isEmpty then refuse .noArguments
  let a ← (ArgumentParser.read programSpecs false args).mapError .usage
  match a.options.find? fun o => o.name == "version" || o.name == "help" with
  | some o => return if o.name == "version" then .version else .help
  | none =>
    let loudness : Loudness := { verbose := a.has "verbose", quiet := a.has "quiet" }
    match a.operands with
    | [] => refuse .noCommand
    | name :: rest =>
      match specsOf name with
      | none => refuse (.unknownCommand name)
      | some specs =>
        let a ← (ArgumentParser.read specs true rest).mapError .usage
        if a.has "help" then return .help
        return .run loudness (← command fs name a)

end Request

end EnvAudit.CommandLine
