import EnvAudit.Identifier
import EnvAudit.Rule.BuiltIn

/-!
# Heuristics

The judgments that count when no rule applies: an identifier with a sensitive word, and a value with
the shape of a token or of a service address.
-/

namespace EnvAudit.Heuristic

def sensitiveWords : List String :=
  ["secret", "token", "key", "password", "passwd", "pwd", "apikey", "api", "auth", "jwt", "bearer",
    "client", "issuer", "webhook", "dsn", "vault", "salt", "private", "cert", "database",
    "connection", "mongo", "s3", "bucket"]

def isSensitiveName (name : String) : Bool :=
  (Identifier.words name).any sensitiveWords.contains

def webScheme : Pattern :=
  open Pattern in (text "http" ++ opt (text "s") ++ text "://").ignoringCase

def loopback : Pattern := (Pattern.anyText ["localhost", "127.0.0.1"]).ignoringCase

def endpointWord : Pattern := (Pattern.anyText Rule.endpointWords).ignoringCase

/-- Whether a value is a web address of a service that is not on the local host. -/
def isConfigUrl (value : String) : Bool :=
  let text := value.toList
  (webScheme.matchAt? (.start text)).isSome && !loopback.occursIn text && endpointWord.occursIn text

/-- An ASCII letter or digit, a hyphen or an underscore. -/
def isTokenChar (c : Char) : Bool := c.isAlphanum || c == '-' || c == '_'

def dropLastNewline : List Char → List Char
  | [] => []
  | ['\n'] => []
  | c :: rest => c :: dropLastNewline rest

/-- Whether a value is three runs of token characters joined by dots; one line end may follow. -/
def isDottedTriple (value : String) : Bool :=
  match Text.splitOn '.' (dropLastNewline value.toList) with
  | [a, b, c] => [a, b, c].all fun part => !part.isEmpty && part.all isTokenChar
  | _ => false

def minTokenLength : Nat := 20

/-- The kinds of characters of which a long token has at least two. -/
def tokenKinds : List (Char → Bool) :=
  [Char.isLower, Char.isUpper, Text.isDigit, fun c => !c.isAlphanum]

/-- Whether a value is long, has no blank characters and mixes kinds of characters. -/
def isLongToken (value : String) : Bool :=
  let text := value.toList
  minTokenLength ≤ text.length && !text.any Text.isBlank
    && 2 ≤ (tokenKinds.filter fun isKind => text.any isKind).length

def isSecretLike (value : String) : Bool :=
  isDottedTriple value || isLongToken value || isConfigUrl value

end EnvAudit.Heuristic
