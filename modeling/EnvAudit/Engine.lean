import EnvAudit.Heuristic
import EnvAudit.Log
import EnvAudit.Rule.BuiltIn

/-!
# Severity engine

The engine scores a candidate by its identifier and its literal value.  Rules have the last word;
where none applies, the heuristics give a fixed severity, so that the candidate is still reported.
-/

namespace EnvAudit

/-- The rules by which candidates are scored. -/
structure Engine where
  nameRules : List Rule := Rule.nameRules
  valueRules : List Rule := Rule.valueRules
deriving Inhabited

namespace Engine

def builtIn : Engine := {}

def extend (engine : Engine) (names values : List Rule) : Engine where
  nameRules := engine.nameRules ++ names
  valueRules := engine.valueRules ++ values

/-- The severity that the heuristics give. -/
def fallbackSeverity : Severity := .medium

def ruleScore (engine : Engine) (name : String) (literal : Option String) : Option Severity :=
  Severity.higher? (classify engine.nameRules name) (literal.bind (classify engine.valueRules))

def isSuspicious (name : String) (literal : Option String) : Bool :=
  Heuristic.isSensitiveName name || literal.any Heuristic.isSecretLike

/-- The severity of a candidate, if anything marks it as sensitive. -/
def score (engine : Engine) (name : String) (literal : Option String := none) : Option Severity :=
  match engine.ruleScore name literal with
  | some severity => some severity
  | none => if isSuspicious name literal then some fallbackSeverity else none

/-- The severity of a candidate, with a record where a heuristic decided. -/
def judge (engine : Engine) (name : String) (literal : Option String) : Logged (Option Severity) :=
  match engine.ruleScore name literal with
  | some severity => pure (some severity)
  | none =>
    if isSuspicious name literal then do
      .say .debug .engine ("Heuristic fallback for " ++ Text.Quoted.quoted name)
      pure (some fallbackSeverity)
    else pure none

theorem value_judge (engine : Engine) (name : String) (literal : Option String) :
    (engine.judge name literal).value = engine.score name literal := by
  unfold judge score
  split
  · rfl
  · split <;> rfl

end Engine

end EnvAudit
