import EnvAudit.Pattern.Basic

/-!
# Patterns from texts

Users write patterns as texts, and a compiler reads these.  Nothing in the program depends on how it
does so but on the outcome.
-/

namespace EnvAudit.Pattern

/-- Why a text is not a pattern. -/
inductive ReadError
  /-- The notation is broken. -/
  | malformed
  /-- A count is too large. -/
  | hugeCount
  /-- The flags for ASCII and for all scripts stand side by side. -/
  | mixedScripts
  /-- The compiler gives up for another reason. -/
  | other (words : String)
deriving Repr, DecidableEq

def ReadError.message : ReadError → String
  | malformed => "malformed pattern"
  | hugeCount => "the repetition number is too large"
  | mixedScripts => "ASCII and UNICODE flags are incompatible"
  | other words => words

/-- A pattern that was read, and whether it ignores letter case as a whole. -/
structure Parsed where
  pattern : Pattern
  ignoreCase : Bool
deriving Repr, Inhabited

/-- What reads patterns. -/
class Compiler where
  /-- The pattern that a text stands for; `ignoreCase` is the setting it starts with. -/
  compile : (text : String) → (ignoreCase : Bool) → Except ReadError Parsed

end EnvAudit.Pattern
