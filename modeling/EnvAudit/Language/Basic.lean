import EnvAudit.Pattern.Search

/-!
# Languages

What a scan knows of a language or file format: the patterns that pair a name with its initial
value, and which parts of a file are not code.
-/

namespace EnvAudit

/-- A language or file format.  In a candidate pattern, group 1 reads the name and group 2 the
initial value. -/
structure Language where
  name : String
  candidates : List Pattern
  comments : Bool := true
  markup : Bool := false
deriving Inhabited

/-- A name and the expression it is given. -/
structure Candidate where
  name : String
  initializer : Option String
deriving Repr, DecidableEq, Inhabited

namespace Candidate

/-- The candidate that a match of a candidate pattern shows. -/
def ofMatch (m : Pattern.Match) : Candidate where
  name := String.ofList ((m.group? 1).getD [])
  initializer := (m.group? 2).map fun text => String.ofList (Text.trim text)

end Candidate

/-- The candidates in a text, pattern by pattern and from left to right. -/
def Language.candidatesIn (language : Language) (text : List Char) : List (List Candidate) :=
  language.candidates.map fun pattern => (pattern.allMatches text).map Candidate.ofMatch

end EnvAudit
