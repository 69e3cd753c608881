import EnvAudit.Rule.Basic

/-!
# Built-in rules

The rules for identifiers and the rules for literal values that apply without any rule file.
-/

namespace EnvAudit.Rule

open Pattern

def alnum : CharClass := .ofRanges [('A', 'Z'), ('a', 'z'), ('0', '9')]

/-- The characters of an opaque token: ASCII letters and digits, hyphen and underscore. -/
def tokenChar : CharClass := alnum.union (.ofString "-_")

def fromStart (p : Pattern) : Pattern := edge .textStart ++ p

/-- The pattern as a whole text; one line end may follow it. -/
def whole (p : Pattern) : Pattern := fromStart (p ++ edge .lastLineEnd)

def word (s : String) : Pattern := (text s).ignoringCase

def restOfLine : Pattern := star .notNewline

/-- At least `count` characters of a class. -/
def atLeast (count : Nat) (k : CharClass) : Pattern := many k count none .greedy

/-- Exactly `count` characters of a class. -/
def exactly (count : Nat) (k : CharClass) : Pattern := many k count (some count) .greedy

def namePatterns : Severity → List Pattern
  | .critical =>
    [ fromStart (text "sk_" ++ one alnum),
      whole (atLeast 32 tokenChar),
      ((text "PRIVATE" ||| text "SECRET") ++ restOfLine ++ text "KEY").ignoringCase,
      (whole (text "SECRET" ++ restOfLine)).ignoringCase,
      (whole (restOfLine ++ text "_SECRET" ++ restOfLine)).ignoringCase,
      word "password",
      word "secret",
      (whole (anyText ["TOKEN", "ACCESS_TOKEN", "API_TOKEN", "JSON_TOKEN"])).ignoringCase,
      (whole (restOfLine ++ text "_TOKEN")).ignoringCase ]
  | .high =>
    [ (text "api" ++ opt (one (.ofString "-_")) ++ text "key").ignoringCase,
      word "token",
      word "private",
      (text "client" ++ opt (one (.ofString "-_")) ++ text "secret").ignoringCase,
      whole (atLeast 20 .notNewline),
      word "jwt", word "bearer", word "dsn", word "connection", word "mongo", word "s3",
      word "bucket" ]
  | .medium =>
    [ word "key", word "id",
      (text "user" ++ opt (text "name")).ignoringCase,
      word "account", word "profile", word "email", word "phone", word "project",
      (text "org" ++ opt (text "anization")).ignoringCase,
      word "workspace", word "region", word "locale", word "timezone", word "cluster",
      word "host", word "server", word "instance", word "url", word "uri", word "schema" ]
  | .low =>
    [ word "port", word "version", word "mode", word "flag",
      (text "lang" ++ opt (text "uage")).ignoringCase,
      word "path",
      (text "dir" ++ opt (text "ectory")).ignoringCase,
      word "file", word "cache", word "temp", word "timeout", word "retry", word "limit",
      word "offset" ]

/-- The rules for identifiers, the most severe first. -/
def nameRules : List Rule :=
  [Severity.critical, .high, .medium, .low].flatMap fun severity =>
    (namePatterns severity).map fun pattern => { pattern, severity }

/-- Three runs of token characters joined by dots, the shape of a signed web token. -/
def dottedTriple : Pattern :=
  whole (plus tokenChar ++ text "." ++ plus tokenChar ++ text "." ++ plus tokenChar)

/-- A connection string with a user and a password in front of the host. -/
def credentialUrl : Pattern :=
  let scheme := anyText ["mysql", "postgres", "postgresql"] |||
    (text "mongodb" ++ opt (text "+srv")) ||| anyText ["redis", "amqp"]
  let user := plus (CharClass.blank.union (.ofString ":@/")).complement
  let password := plus (CharClass.blank.union (.ofString "@/")).complement
  (fromStart (scheme ++ text "://" ++ user ++ text ":" ++ password ++ text "@")).ignoringCase

/-- The words in a web address that tell of an interface or an identity service. -/
def endpointWords : List String :=
  ["api", "auth", "oauth", "db", "graphql", "issuer", "login", "token", "endpoint"]

/-- A web address with an endpoint word that does not name the local host. -/
def endpointUrl : Pattern :=
  let anything := Pattern.star .anyChar
  (fromStart
    (text "http" ++ opt (text "s") ++ text "://"
      ++ ahead false (anything ++ anyText ["localhost", "127.0.0.1"])
      ++ anything ++ anyText endpointWords)).ignoringCase

def valueRules : List Rule :=
  [ ⟨whole (atLeast 40 tokenChar), .critical⟩,
    ⟨whole (atLeast 20 tokenChar), .high⟩,
    ⟨dottedTriple, .high⟩,
    ⟨fromStart (anyText ["sk", "rk"] ++ text "_live_" ++ atLeast 16 alnum), .critical⟩,
    ⟨fromStart (text "sk_test_" ++ atLeast 16 alnum), .high⟩,
    ⟨whole (text "AKIA" ++ exactly 16 (.ofRanges [('0', '9'), ('A', 'Z')])), .critical⟩,
    ⟨fromStart (text "gh" ++ one (.ofString "pousr") ++ text "_" ++ exactly 36 alnum), .critical⟩,
    ⟨whole (text "AIza" ++ exactly 35 tokenChar), .critical⟩,
    ⟨fromStart (text "sk-" ++ opt (anyText ["proj-", "ant-"])
        ++ atLeast 40 (alnum.union (.ofString "-"))), .critical⟩,
    ⟨fromStart (text "xox" ++ one (.ofString "baprs") ++ text "-"
        ++ atLeast 10 (alnum.union (.ofString "-"))), .critical⟩,
    ⟨credentialUrl, .critical⟩,
    ⟨endpointUrl, .high⟩ ]

end EnvAudit.Rule
