import EnvAudit.Config.File
import EnvAudit.Terminal.Console

/-!
# Sessions

What a command works on: files, lines of input, what has been printed and recorded so far.  A
command can end with a failure; what was printed before stays.
-/

namespace EnvAudit.CommandLine

/-- Why a command ends early. -/
inductive Failure
  /-- A document or a file cannot be used. -/
  | document (cause : DocumentError)
  /-- A message cannot be printed, since a path in it breaks its markup. -/
  | markup
  /-- There is no answer to a question. -/
  | aborted
deriving Repr

def Failure.message : Failure → String
  | document cause => cause.message
  | markup => "a tag in a message closes nothing"
  | aborted => "Aborted!"

/-- What a command works on. -/
structure Session where
  fs : FileSystem
  /-- The lines of input that are left. -/
  input : List String := []
  output : List Char := []
  log : List LogRecord := []

abbrev Act := ExceptT Failure (StateM Session)

namespace Act

def echo (text : String) : Act Unit :=
  modify fun s => { s with output := s.output ++ text.toList }

/-- Prints a line of markup. -/
def print [Terminal.Console] (markup : String) : Act Unit := do
  match Terminal.Console.print false markup with
  | .error _ => throw .markup
  | .ok printed => modify fun s => { s with output := s.output ++ printed }

/-- Takes over a result and its records. -/
def logged {α : Type} (x : Logged α) : Act α := do
  modify fun s => { s with log := s.log ++ x.log }
  return x.value

/-- Takes over a result that may be a failure of a file. -/
def file {α : Type} (x : Except FileError α) : Act α :=
  match x with
  | .ok a => return a
  | .error cause => throw (.document (.file cause))

/-- Takes over a result that may be a failure of a document. -/
def document {α : Type} (x : Except DocumentError α) : Act α :=
  match x with
  | .ok a => return a
  | .error cause => throw (.document cause)

def files : Act FileSystem := return (← get).fs

def setFiles (fs : FileSystem) : Act Unit := modify fun s => { s with fs }

/-- The settings for a path, and whether they come from a file. -/
def settingsFor [Yaml.Library] (path : Path) : Act (Settings × Bool) := do
  let (settings, loaded) ← logged (Settings.load {} (← files) path)
  return (settings, ← document loaded)

def settingsHere [Yaml.Library] : Act Settings := do return (← settingsFor (← files).cwdPath).1

def yesWords : List String := ["y", "yes"]

/-- The answers that mean no; so does an empty line. -/
def noWords : List String := ["n", "no", ""]

/-- Asks a question until a line of input answers it.  The lines are echoed. -/
def confirmWith (question : String) : List String → Act Bool
  | [] => do
    echo (question ++ " [y/N]: ")
    throw .aborted
  | line :: rest => do
    echo (question ++ " [y/N]: " ++ line ++ "\n")
    modify fun s => { s with input := rest }
    let answer := Text.trimmed (Text.lowered line)
    if yesWords.contains answer then return true
    else if noWords.contains answer then return false
    else
      echo "Error: invalid input\n"
      confirmWith question rest

def confirm (question : String) : Act Bool := do confirmWith question (← get).input

end Act

end EnvAudit.CommandLine
