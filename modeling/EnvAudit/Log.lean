/-!
# Log records

What the parts of the program have to say about their work, as data.
-/

namespace EnvAudit

/-- How much a record matters. -/
inductive LogLevel
  | debug
  | warning
  | error
deriving Repr, DecidableEq

def LogLevel.rank : LogLevel → Nat
  | debug => 0
  | warning => 1
  | error => 2

/-- The part of the program that speaks. -/
inductive LogSource
  | engine
  | fileScan
  | treeScan
  | ruleFile
  | config
  | dotenv
  | scanCommand
deriving Repr, DecidableEq

/-- One record. -/
structure LogRecord where
  level : LogLevel
  source : LogSource
  message : String
deriving Repr, DecidableEq

/-- A result together with the records made on the way to it, the earliest first. -/
structure Logged (α : Type) where
  value : α
  log : List LogRecord := []

namespace Logged

instance : Monad Logged where
  pure a := ⟨a, []⟩
  bind x f :=
    let y := f x.value
    ⟨y.value, x.log ++ y.log⟩

def say (level : LogLevel) (source : LogSource) (message : String) : Logged Unit :=
  ⟨(), [⟨level, source, message⟩]⟩

@[simp]
theorem value_pure {α : Type} (a : α) : (pure a : Logged α).value = a := rfl

@[simp]
theorem value_bind {α β : Type} (x : Logged α) (f : α → Logged β) :
    (x >>= f).value = (f x.value).value := rfl

end Logged

end EnvAudit
