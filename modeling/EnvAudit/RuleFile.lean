import EnvAudit.FileSystem.Basic
import EnvAudit.Log
import EnvAudit.Pattern.Compiler
import EnvAudit.Rule.Basic
import EnvAudit.Yaml.Library

/-!
# Rule files

A rule file lists rules for identifiers and rules for values, each with a pattern and a severity.
An entry that is not in order is left out with a warning and does not touch the others.
-/

namespace EnvAudit

/-- What a rule of a file speaks about. -/
inductive RuleTarget
  | name
  | value
deriving Repr, DecidableEq

def RuleTarget.ofName? : String → Option RuleTarget
  | "name" => some .name
  | "value" => some .value
  | _ => none

/-- A rule of a file, with its pattern as it is written there. -/
structure FileRule where
  target : RuleTarget
  source : String
  ignoreCase : Bool
  rule : Rule
deriving Repr

/-- What keeps a document from being read. -/
inductive DocumentError
  | file (cause : FileError)
  | yaml (cause : Yaml.Fault)
  | pattern (cause : Pattern.ReadError)
deriving Repr

def DocumentError.message : DocumentError → String
  | file cause => cause.message
  | yaml cause => cause.message
  | pattern cause => cause.message

variable [Yaml.Library] [Pattern.Compiler]

def readDocument (fs : FileSystem) (path : Path) : Except DocumentError Yaml.Value := do
  let bytes ← (fs.read path).mapError .file
  (Yaml.Library.read bytes).mapError .yaml

namespace RuleFile

/-- Why an entry of a rule file is no rule. -/
inductive EntryFault
  | notMapping
  | missing (field : String)
  | target (text : String)
  | severity (text : String)
  | pattern
deriving Repr, DecidableEq

/-- The warning about the entry with a number in a file. -/
def EntryFault.message (fault : EntryFault) (index : Nat) (path : Path) : String :=
  match fault with
  | notMapping => s!"Rule #{index} in {path} is not a mapping"
  | missing field => s!"Rule #{index} missing required field '{field}' in {path}"
  | target text => s!"Invalid target '{text}' in rule #{index} of {path}"
  | severity text => s!"Invalid severity '{text}' in rule #{index} of {path}"
  | pattern => s!"Invalid pattern in rule #{index} of {path}"

/-- What is read from an entry: it may be no rule, or hold a number that is too long to be shown. -/
abbrev EntryRead := ExceptT EntryFault (Except Yaml.Fault)

/-- Reads the target of an entry; identifiers are the default. -/
def targetOf (entry : Yaml.Value) : EntryRead RuleTarget :=
  match entry.field? "target" with
  | none => return .name
  | some v =>
    let found := match v with
      | .text s => RuleTarget.ofName? s
      | _ => none
    match found with
    | some target => return target
    | none => do throw (.target (← v.shown))

def required (entry : Yaml.Value) (field : String) : EntryRead Yaml.Value :=
  match entry.field? field with
  | some v => return v
  | none => throw (.missing field)

/-- Reads an entry up to its pattern: the target, the severity, the text of the pattern and whether
letter case is ignored. -/
def parts (entry : Yaml.Value) : EntryRead (RuleTarget × Severity × String × Bool) := do
  if !entry.isMap then throw .notMapping
  let pattern ← required entry "pattern"
  let severity ← required entry "severity"
  let target ← targetOf entry
  let level ← severity.shown
  let severity ← ExceptT.mk (.ok ((Severity.parse level).mapError fun e => .severity e.text))
  let ignoreCase := ((entry.field? "ignore_case").map (·.isTruthy)).getD true
  return (target, severity, ← pattern.shown, ignoreCase)

/-- Reads an entry.  A number that is too long, and a pattern that is not only malformed, end the
reading of all files. -/
def rule (entry : Yaml.Value) : Except DocumentError (Except EntryFault FileRule) :=
  match (parts entry).run with
  | .error fault => .error (.yaml fault)
  | .ok (.error fault) => .ok (.error fault)
  | .ok (.ok (target, severity, source, ignoreCase)) =>
    match Pattern.Compiler.compile source ignoreCase with
    | .ok parsed =>
      .ok (.ok
        { target, source, ignoreCase := parsed.ignoreCase,
          rule := { pattern := parsed.pattern, severity } })
    | .error .malformed => .ok (.error .pattern)
    | .error cause => .error (.pattern cause)

def say (level : LogLevel) (message : String) : List LogRecord := [⟨level, .ruleFile, message⟩]

/-- The entries of a document, or what is to be said about it. -/
def entriesOf (path : Path) (document : Yaml.Value) : List Yaml.Value × List LogRecord :=
  match document.field? "rules" with
  | none => ([], say .warning s!"No rules found in {path}")
  | some v =>
    match (Yaml.Value.truthyOr (some v) (.list [])).items? with
    | some entries => (entries, [])
    | none => ([], say .warning s!"'rules' in {path} is not a list")

/-- The rules of entries, the first of which has the given number, and the warnings about those that
are none. -/
def rulesOf (path : Path) : (index : Nat) → List Yaml.Value →
    Logged (Except DocumentError (List FileRule))
  | _, [] => pure (.ok [])
  | index, entry :: rest =>
    match rule entry with
    | .error cause => pure (.error cause)
    | .ok (.error fault) => do
      .say .warning .ruleFile (fault.message index path)
      rulesOf path (index + 1) rest
    | .ok (.ok r) => do
      return (← rulesOf path (index + 1) rest).map (r :: ·)

/-- The rules of a file.  A file that cannot be read, or is no document, has none. -/
def load (fs : FileSystem) (path : Path) : Logged (Except DocumentError (List FileRule)) :=
  match readDocument fs path with
  | .error (.yaml .malformed) => do
    .say .error .ruleFile s!"YAML parse error in {path}"
    return .ok []
  | .error (.file (.fault cause p)) => do
    .say .error .ruleFile s!"Error loading {path}: {(FileError.fault cause p).message}"
    return .ok []
  | .error cause => pure (.error cause)
  | .ok document => do
    let (entries, log) := entriesOf path document
    ⟨(), log⟩
    rulesOf path 0 entries

def loadAll (fs : FileSystem) : List Path → Logged (Except DocumentError (List FileRule))
  | [] => pure (.ok [])
  | path :: rest => do
    match ← load fs path with
    | .error cause => return .error cause
    | .ok rules => return (← loadAll fs rest).map (rules ++ ·)

/-- The paths with those of them added that name a file; there is a warning for each other one. -/
def add (fs : FileSystem) (known : List Path) : List Path →
    Logged (Except FileError (List Path))
  | [] => pure (.ok known)
  | path :: rest =>
    match fs.isFile path with
    | .error cause => pure (.error cause)
    | .ok true => add fs (known ++ [path]) rest
    | .ok false => do
      .say .warning .ruleFile s!"Rule file does not exist: {path}"
      add fs known rest

def forTarget (target : RuleTarget) (rules : List FileRule) : List Rule :=
  (rules.filter (·.target == target)).map (·.rule)

end RuleFile

end EnvAudit
