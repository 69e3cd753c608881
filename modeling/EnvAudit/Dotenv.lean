import EnvAudit.Log
import EnvAudit.Pattern.Search
import EnvAudit.Report
import EnvAudit.Text.Newline
import EnvAudit.Text.Utf8

/-!
# Environment files

Suggested variables can be added to an environment file.  A variable that the file defines already
is left alone, and what the file holds stays as it is.
-/

namespace EnvAudit.Dotenv

/-- What stands in front of added variables. -/
def header : String :=
  "\n\n# Suggested by env-guardian\n# Rename the variables to your project's conventions and " ++
    "fill in any\n# values the scanner could not capture.\n"

/-- Whether a value with this character must be quoted. -/
def needsQuotes (c : Char) : Bool := Text.isBlank c || ['#', '\'', '"', '\\'].contains c

def encodeChar : Char → List Char
  | '\\' => ['\\', '\\']
  | '"' => ['\\', '"']
  | '\n' => ['\\', 'n']
  | c => [c]

def encode (value : List Char) : List Char :=
  if value.any needsQuotes then '"' :: (value.flatMap encodeChar ++ ['"']) else value

def line (name : String) (value : Option String) : String :=
  name ++ "=" ++ String.ofList (encode (value.getD "").toList)

/-- The definition of a variable at the start of a line. -/
def definition (name : String) : Pattern :=
  open Pattern in
  edge .lineStart ++ blanks ++ opt (text "export" ++ blanks1) ++ text name ++ text "="

def defines (content : List Char) (name : String) : Bool := (definition name).occursIn content

/-- The entries that could be added to a file with the given content. -/
def missing (content : List Char) (findings : Findings) : List (String × Entry) :=
  findings.sortedEntries.filter fun (name, e) => !e.suggested.isEmpty && !defines content name

/-- The names and values to be added to a file. -/
def additions (content : List Char) (findings : Findings) (ignored : String → Bool) :
    List (String × Option String) :=
  ((missing content findings).filter fun (name, _) => !ignored name).map fun (name, e) =>
    (name, e.value?)

def addedText (added : List (String × Option String)) : String :=
  header ++ "\n".intercalate (added.map fun item => line item.1 item.2) ++ "\n"

/-- The content of an environment file, with line ends unified; a file that is not there is
empty. -/
def content (fs : FileSystem) (path : Path) : Except FileError (List Char) := do
  if ← fs.exists? path then
    let bytes ← fs.read path
    match Text.Utf8.decode? bytes with
    | some text => .ok (Text.unifyNewlines text)
    | none => .error .notText
  else return []

/-- What adding suggestions has done. -/
structure Outcome where
  fileSystem : FileSystem
  written : List String
  log : List LogRecord := []

/-- Adds the suggested variables that are neither defined nor ignored.  With nothing to add, the
file is not touched. -/
def append (fs : FileSystem) (path : Path) (findings : Findings) (test : IgnoreTest) :
    Except FileError Outcome := do
  let content ← content fs path
  let files (e : Entry) : List String := e.suggested.map (·.file)
  let ignored ← test.ignoredNames files (missing content findings)
  let added := additions content findings ignored.contains
  let written := added.map (·.1)
  if written.isEmpty then return { fileSystem := fs, written }
  let fileSystem ← fs.append path (addedText added)
  let message := s!"Appended {written.length} suggestion(s) to {path}"
  return { fileSystem, written, log := [⟨.debug, .dotenv, message⟩] }

end EnvAudit.Dotenv
