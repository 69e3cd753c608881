import EnvAudit.Language.Basic
import EnvAudit.Path
import EnvAudit.Text.Case

/-!
# Language registry

The languages by key, and the choice of a language for a file: names with a meaning of their own
come first, and then the extension.
-/

namespace EnvAudit.Language

open Pattern

def nameStart : CharClass := .ofRanges [('A', 'Z'), ('a', 'z'), ('_', '_')]

def nameChar : CharClass := .ofRanges [('A', 'Z'), ('a', 'z'), ('0', '9'), ('_', '_')]

def upperChar : CharClass := .ofRanges [('A', 'Z'), ('0', '9'), ('_', '_')]

def quoteChar : CharClass := .ofString "'\"\x60"

def dollar : CharClass := .ofChar '$'

def inlineBlank : CharClass := .ofString " \t"

def inLine : Pattern := plus .notNewline

def equals : Pattern := blanks ++ text "=" ++ blanks

def named (p : Pattern) : Pattern := group 1 p

def valued (p : Pattern) : Pattern := group 2 p

def dollarName : Pattern := named (one (nameStart.union dollar) ++ star (nameChar.union dollar))

/-- A declaration up to the first semicolon or line end. -/
def declaration : Pattern :=
  anyText ["const", "let", "var"] ++ blanks1 ++ dollarName ++ equals
    ++ valued (starLazy .anyChar) ++ ahead true (text ";" ||| text "\n" ||| edge .textEnd)

/-- A property that is given a string or a value of the process environment. -/
def property : Pattern :=
  dollarName ++ blanks ++ text ":" ++ blanks
    ++ valued ((one quoteChar ++ plus quoteChar.complement ++ one quoteChar)
      ||| (text "process.env." ++ plus upperChar))

/-- An assignment of the shell with the keyword that exports it. -/
def shellExport : Pattern :=
  text "export" ++ blanks1 ++ named (plus upperChar) ++ text "=" ++ valued inLine

def shellAssignment : Pattern := named (plus upperChar) ++ text "=" ++ valued inLine

def mappingKey : Pattern :=
  (named (plus upperChar) ++ text ":" ++ star inlineBlank ++ valued inLine).ignoringCase

def plainName : Pattern := named (one nameStart ++ star nameChar)

def quotedAssignment : Pattern :=
  plainName ++ equals ++ valued (opt (one quoteChar) ++ inLine ++ opt (one quoteChar))

/-- An assignment of the rest of the line. -/
def lineAssignment : Pattern := plainName ++ equals ++ valued inLine

/-- The text between two quotes, in which a backslash escapes the next character. -/
def escapedString (quote : Char) : Pattern :=
  let plain := star (CharClass.ofString (String.ofList [quote, '\\', '\n'])).complement
  let escaped := text "\\" ++ one .notNewline
  text quote.toString ++ plain ++ loop (escaped ++ plain) 0 none .greedy ++ text quote.toString

/-- A quoted key of capitals with its value. -/
def objectMember : Pattern :=
  one (.ofString "\"'") ++ named (plus upperChar) ++ one (.ofString "\"'") ++ blanks ++ text ":"
    ++ blanks
    ++ valued (escapedString '"' ||| escapedString '\''
      ||| plus (CharClass.ofString ",\x7d]\n").complement)

/-- A statement that assigns to the name after an introduction, up to the last semicolon. -/
def statement (introduction : Pattern) : Pattern :=
  introduction ++ named (plus nameChar) ++ equals ++ valued inLine ++ text ";"

/-- A value declaration without an end mark. -/
def valueDeclaration : Pattern :=
  text "val" ++ blanks1 ++ named (plus nameChar) ++ equals ++ valued inLine

def shortDeclaration : Pattern :=
  named (plus nameChar) ++ blanks ++ text ":=" ++ blanks ++ valued inLine

/-- An image instruction that sets an environment variable. -/
def imageEnv : Pattern :=
  (edge .lineStart ++ blanks ++ text "ENV" ++ blanks1 ++ named (plus upperChar)
    ++ (plus inlineBlank ||| text "=") ++ valued inLine ++ edge .lineEnd).ignoringCase

/-- An image instruction that declares a build argument. -/
def imageArg : Pattern :=
  (edge .lineStart ++ blanks ++ text "ARG" ++ blanks1 ++ named (plus upperChar) ++ text "="
    ++ valued inLine).ignoringCase

def registryToken : Pattern :=
  (edge .lineStart ++ blanks ++ text "//" ++ starLazy .notNewline ++ text ":"
    ++ named (text "_authToken") ++ equals ++ valued inLine ++ edge .lineEnd).ignoringCase

def registryAuth : Pattern :=
  (edge .lineStart ++ blanks ++ named (text "_auth") ++ equals ++ valued inLine
    ++ edge .lineEnd).ignoringCase

def tokenKey : Pattern :=
  (named (text "npmAuthToken") ++ text ":" ++ blanks ++ valued inLine).ignoringCase

def tokenAssignment : Pattern :=
  (named (text "_authToken") ++ equals ++ valued inLine).ignoringCase

/-- All languages; the name of a language is its key. -/
def registry : List Language :=
  [ { name := "js", candidates := [declaration] },
    { name := "ts", candidates := [declaration] },
    { name := "vue", candidates := [declaration, property], markup := true },
    { name := "py", candidates := [quotedAssignment] },
    { name := "rb", candidates := [lineAssignment] },
    { name := "sh", candidates := [shellExport, shellAssignment] },
    { name := "bash", candidates := [shellExport, shellAssignment] },
    { name := "env", candidates := [shellAssignment] },
    { name := "json", candidates := [objectMember] },
    { name := "yml", candidates := [mappingKey] },
    { name := "yaml", candidates := [mappingKey] },
    { name := "php", candidates := [statement (text "$")] },
    { name := "java", candidates := [statement (text "String" ++ blanks1)] },
    { name := "kt", candidates := [valueDeclaration] },
    { name := "go", candidates := [shortDeclaration] },
    { name := "cs", candidates := [statement (text "var" ++ blanks1)] },
    { name := "dockerfile", candidates := [imageEnv, imageArg] },
    { name := "npmrc", candidates := [registryToken, registryAuth], comments := false },
    { name := "yarnrc", candidates := [tokenKey, tokenAssignment], comments := false },
    { name := "github", candidates := [mappingKey] },
    { name := "gitlab", candidates := [mappingKey] },
    { name := "circleci", candidates := [mappingKey] },
    { name := "azure", candidates := [mappingKey] } ]

def find? (key : String) : Option Language := registry.find? (·.name == key)

def ofExtension : String → String
  | "jsx" | "mjs" | "cjs" => "js"
  | "tsx" | "mts" | "cts" => "ts"
  | "zsh" => "sh"
  | extension => extension

def extension? (name : List Char) : Option (List Char) :=
  if name.contains '.' then some (name.reverse.takeWhile (· != '.')).reverse else none

def ofPipelineDirectory? : String → Option String
  | ".github" => some "github"
  | ".circleci" => some "circleci"
  | _ => none

/-- The key for a mapping file, from its lower-case name and the directories above it. -/
def ofMappingFile? (name : List Char) (directories : List String) : Option String :=
  if ".gitlab-ci.".toList.isPrefixOf name then some "gitlab"
  else if "azure-pipelines.".toList.isPrefixOf name then some "azure"
  else directories.findSome? ofPipelineDirectory?

def keyOf? (path : Path) : Option String :=
  let name := Text.lower path.name.toList
  let startsWith (part : String) : Bool := part.toList.isPrefixOf name
  if name == "dockerfile".toList || startsWith "dockerfile."
      || ".dockerfile".toList.isSuffixOf name then some "dockerfile"
  else if name == ".env".toList || startsWith ".env." then some "env"
  else if name == ".npmrc".toList then some "npmrc"
  else if startsWith ".yarnrc" then some "yarnrc"
  else
    match extension? name with
    | none => none
    | some ext =>
      let ext := String.ofList ext
      let special := if ext = "yml" ∨ ext = "yaml" then ofMappingFile? name path.parts.dropLast
        else none
      some (special.getD (ofExtension ext))

def ofPath? (path : Path) : Option Language := (keyOf? path).bind find?

end EnvAudit.Language
