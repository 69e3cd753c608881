import EnvAudit.Pattern.Reader.Basic

/-!
# Counts

How often a part of a pattern is repeated, and in which order the numbers of rounds are tried.
-/

namespace EnvAudit.Pattern.Read

/-- The number from which on a count is too large. -/
def countLimit : Nat := 4294967295

def count (digits : List Char) : Read Nat := do
  let number := Text.numberOfDigits 10 digits
  if countLimit ≤ number then throw .hugeCount
  return number

/-- The bounds of a quantifier after its first character; `none` if a brace opens no count. -/
def bounds? (c : Char) : Read (Option (Nat × Option Nat)) := do
  match c with
  | '?' => return some (0, some 1)
  | '*' => return some (0, none)
  | '+' => return some (1, none)
  | _ =>
    let before := (← get).rest
    let low ← takeUpTo before.length Char.isDigit
    let ranged ← accept ','
    let high ← if ranged then takeUpTo before.length Char.isDigit else pure low
    if (← accept '}') && before.head? != some '}' then
      let least ← if low.isEmpty then pure 0 else count low
      let most ← if high.isEmpty then pure none else some <$> count high
      if most.any (· < least) then fail
      return some (least, most)
    modify ({ · with rest := before })
    return none

def greed : Read Greed := do
  if ← accept '?' then return .lazy
  if ← accept '+' then return .possessive
  return .greedy

def repetition (p : Pattern) (least : Nat) (most : Option Nat) (greed : Greed) : Pattern :=
  match p with
  | one k => many k least most greed
  | p => loop p least most greed

end EnvAudit.Pattern.Read
