import EnvAudit.Pattern.Search
import EnvAudit.Severity

/-!
# Severity rules

A rule gives a severity to every text in which its pattern occurs.  Rules overlap on purpose: all of
them are asked, and the highest severity counts.
-/

namespace EnvAudit

/-- A pattern and the severity of the texts it occurs in. -/
structure Rule where
  pattern : Pattern
  severity : Severity
deriving Repr, Inhabited

def Rule.appliesTo (rule : Rule) (text : String) : Bool := rule.pattern.occursIn text.toList

/-- The highest severity of the rules that apply to a text, if any does. -/
def classify (rules : List Rule) (text : String) : Option Severity :=
  (rules.filter (·.appliesTo text)).foldl
    (fun highest rule => Severity.higher? highest (some rule.severity)) none

end EnvAudit
