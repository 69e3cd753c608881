import EnvAudit.Text.Blank
import EnvAudit.Text.Case
import EnvAudit.Text.Quoted

/-!
# Severity

How much it matters that a value stands in the source.  Severities are ordered by rank.
-/

namespace EnvAudit

/-- The severity of a hard-coded value. -/
inductive Severity
  | low
  | medium
  | high
  | critical
deriving Repr, DecidableEq, Inhabited

/-- A text that names no severity. -/
structure UnknownSeverity where
  text : String
deriving Repr, DecidableEq

def UnknownSeverity.message (e : UnknownSeverity) : String :=
  "Unknown severity: " ++ Text.Quoted.quoted e.text

namespace Severity

def all : List Severity := [low, medium, high, critical]

def rank : Severity → Nat
  | low => 0
  | medium => 1
  | high => 2
  | critical => 3

instance : LE Severity := ⟨fun a b => a.rank ≤ b.rank⟩

instance : LT Severity := ⟨fun a b => a.rank < b.rank⟩

instance (a b : Severity) : Decidable (a ≤ b) := inferInstanceAs (Decidable (a.rank ≤ b.rank))

instance (a b : Severity) : Decidable (a < b) := inferInstanceAs (Decidable (a.rank < b.rank))

instance : Max Severity := ⟨fun a b => if b ≤ a then a else b⟩

def name : Severity → String
  | low => "low"
  | medium => "medium"
  | high => "high"
  | critical => "critical"

/-- The name of a severity in capitals, as reports print it. -/
def label : Severity → String
  | low => "LOW"
  | medium => "MEDIUM"
  | high => "HIGH"
  | critical => "CRITICAL"

/-- The severity of that name.  Blank characters around the name and its letter case do not
matter. -/
def parse (text : String) : Except UnknownSeverity Severity :=
  let word := Text.lowered (Text.trimmed text)
  match all.find? (·.name == word) with
  | some severity => .ok severity
  | none => .error ⟨text⟩

/-- The higher of two severities, either of which may be absent. -/
def higher? : Option Severity → Option Severity → Option Severity
  | none, b => b
  | some a, none => some a
  | some a, some b => some (max a b)

end Severity

end EnvAudit
