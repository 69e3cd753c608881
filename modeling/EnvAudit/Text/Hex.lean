/-!
# Hexadecimal digits

Fixed-width hexadecimal numerals, as escape sequences use them.
-/

namespace EnvAudit.Text

/-- The digit of a value below sixteen, in lower case. -/
def hexDigit (value : Nat) : Char :=
  if value < 10 then Char.ofNat (0x30 + value) else Char.ofNat (0x57 + value)

/-- The last `width` hexadecimal digits of a number, in lower case. -/
def hexDigits : (width : Nat) → (number : Nat) → List Char
  | 0, _ => []
  | width + 1, number => hexDigits width (number / 16) ++ [hexDigit (number % 16)]

def hexValue? (c : Char) : Option Nat :=
  if c.isDigit then some (c.toNat - 0x30)
  else if 'a' ≤ c ∧ c ≤ 'f' then some (c.toNat - 0x57)
  else if 'A' ≤ c ∧ c ≤ 'F' then some (c.toNat - 0x37)
  else none

def isHexDigit (c : Char) : Bool := (hexValue? c).isSome

/-- The number that a run of digits of base `base` denotes; other characters count as zero. -/
def numberOfDigits (base : Nat) (digits : List Char) : Nat :=
  digits.foldl (fun number c => number * base + (hexValue? c).getD 0) 0

end EnvAudit.Text
