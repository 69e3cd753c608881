import EnvAudit.Text.Blank
import EnvAudit.Text.Case
import EnvAudit.Text.Split

/-!
# Words of an identifier

An identifier is cut into words where the case rises (`apiKey`) and at underscores, hyphens and
blank characters (`DB_PASSWORD`, `s3-bucket`).
-/

namespace EnvAudit.Identifier

def endsWord (c : Char) : Bool := c.isLower || c.isDigit

def isSeparator (c : Char) : Bool := Text.isBlank c || c == '_' || c == '-'

/-- Puts a space where an ASCII capital follows a lower-case letter or digit. -/
def spaceOut : List Char → List Char
  | [] => []
  | [c] => [c]
  | a :: b :: rest =>
    if endsWord a && b.isUpper then a :: ' ' :: spaceOut (b :: rest) else a :: spaceOut (b :: rest)

def wordsOf (name : List Char) : List (List Char) :=
  ((Text.splitWhere isSeparator (spaceOut name)).filter (!·.isEmpty)).map Text.lower

def words (name : String) : List String := (wordsOf name.toList).map String.ofList

end EnvAudit.Identifier
