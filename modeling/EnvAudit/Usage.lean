import EnvAudit.Language.Registry

/-!
# Environment reads

The ways in which source text reads the environment, in every language at once: accessors of a
runtime library, shell expansions, and declarations that take several variables out of the process
environment.
-/

namespace EnvAudit.Usage

open Pattern EnvAudit.Language

def variableName : Pattern := group 1 (plus upperChar)

/-- A variable name in quotes of the given kinds, with blanks in front. -/
def quotedVariable (quotes : String) : Pattern :=
  blanks ++ one (.ofString quotes) ++ variableName ++ one (.ofString quotes)

def wordEdge : Pattern := edge (.wordEdge false false)

/-- The patterns that read one variable, whose name is group 1. -/
def patterns : List Pattern :=
  [ text "process.env." ++ variableName ++ wordEdge,
    text "process.env[" ++ quotedVariable "'\"\x60" ++ blanks ++ text "]",
    text "import.meta.env." ++ variableName ++ wordEdge,
    text "Deno.env.get(" ++ quotedVariable "'\"",
    text "os.environ[" ++ quotedVariable "'\"" ++ blanks ++ text "]",
    text "os.environ.get(" ++ quotedVariable "'\"",
    wordEdge ++ text "getenv(" ++ quotedVariable "'\"",
    wordEdge ++ text "ENV[" ++ quotedVariable "'\"" ++ blanks ++ text "]",
    wordEdge ++ text "ENV.fetch(" ++ quotedVariable "'\"",
    text "os." ++ anyText ["Getenv", "LookupEnv"] ++ text "(" ++ quotedVariable "\"",
    text "Environment.GetEnvironmentVariable(" ++ quotedVariable "\"",
    text "$" ++ opt (text "\x7b")
      ++ group 1 (one (.ofRanges [('A', 'Z'), ('_', '_')]) ++ star upperChar) ]

/-- A declaration that takes variables out of the process environment; group 1 lists them. -/
def destructuring : Pattern :=
  anyText ["const", "let", "var"] ++ blanks ++ text "\x7b"
    ++ group 1 (plus (CharClass.ofChar '}').complement) ++ text "\x7d"
    ++ equals ++ text "process.env" ++ wordEdge

/-- A pipeline expression that takes a value from the context of the run. -/
def pipelineExpression : Pattern :=
  text "$\x7b\x7b" ++ blanks ++ anyText ["secrets", "env", "vars"] ++ text "." ++ one nameStart
    ++ star nameChar ++ blanks ++ text "\x7d\x7d"

/-- Whether a name consists of capitals, digits and underscores and does not begin with a digit. -/
def isAllCaps : List Char → Bool
  | [] => false
  | c :: rest =>
    (c.isUpper || c == '_') && rest.all fun c => c.isUpper || c.isDigit || c == '_'

/-- The variable that one part of a destructuring list takes: what stands in front of a new name or
a default value. -/
def boundName (part : List Char) : List Char := Text.trim (Text.upTo '=' (Text.upTo ':' part))

def boundNames (list : List Char) : List (List Char) :=
  ((Text.splitOn ',' list).map boundName).filter isAllCaps

/-- The names of all variables that a text reads: pattern by pattern, and last those of
destructuring declarations. -/
def namesIn (text : List Char) : List String :=
  let single := patterns.flatMap fun p => (p.allMatches text).map fun m => (m.group? 1).getD []
  let listed := (destructuring.allMatches text).flatMap fun m => boundNames ((m.group? 1).getD [])
  (single ++ listed).map String.ofList

def isReference (expression : String) : Bool :=
  let text := expression.toList
  pipelineExpression.occursIn text || patterns.any (·.occursIn text)

end EnvAudit.Usage
