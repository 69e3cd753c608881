import EnvAudit.Engine
import EnvAudit.FileSystem.Basic
import EnvAudit.Finding
import EnvAudit.Literal
import EnvAudit.Source
import EnvAudit.Text.Newline
import EnvAudit.Text.Utf8
import EnvAudit.Usage

/-!
# Scanning one file

A file's text is reduced to code.  Every environment read in it is a usage; every candidate that the
engine scores is a suggestion, unless its initial value itself reads the environment.
-/

namespace EnvAudit.FileScan

/-- A candidate that the engine has looked at. -/
structure Judged where
  name : String
  literal : Option String
  severity : Option Severity
deriving Repr, DecidableEq

/-- Whether a candidate hands on a value of the environment. -/
def isReexport (c : Candidate) : Bool := c.initializer.any Usage.isReference

def judge (engine : Engine) (c : Candidate) : Logged Judged := do
  let literal := c.initializer.bind Literal.text?
  let severity ← engine.judge c.name literal
  pure { name := c.name, literal, severity }

def scored (language : Language) (code : List Char) : List Candidate :=
  (language.candidatesIn code).flatten.filter fun c => c.name != "" && !isReexport c

def recordJudged (file : String) (findings : Findings) (j : Judged) : Findings :=
  match j.severity with
  | none => findings
  | some severity =>
    findings.addSuggestion j.name { file, value := j.literal, severity := some severity }

/-- Scans a text that belongs to a file. -/
def scanText (engine : Engine) (language : Language) (file : String) (text : List Char) :
    Logged Findings := do
  let code := Source.code text language.comments language.markup
  let used := (Usage.namesIn code).foldl (fun findings name => findings.addUsage name file) .empty
  let judged ← (scored language code).mapM (judge engine)
  let findings := judged.foldl (recordJudged file) used
  .say .debug .fileScan
    s!"Scanned {file} ({language.name}): {findings.size} identifiers"
  pure findings

/-- Scans a file that belongs to a language.  There is a warning about a file that cannot be read,
and no findings. -/
def scanFile (engine : Engine) (fs : FileSystem) (path : Path) (language : Language) :
    Logged (Except FileError (Option Findings)) :=
  match fs.read path with
  | .ok bytes => do
    let text := Text.unifyNewlines (Text.Utf8.decodeLossy bytes)
    return .ok (some (← scanText engine language path.toString text))
  | .error (.fault cause p) => do
    .say .warning .fileScan s!"Error reading {path}: {(FileError.fault cause p).message}"
    return .ok none
  | .error cause => pure (.error cause)

end EnvAudit.FileScan
