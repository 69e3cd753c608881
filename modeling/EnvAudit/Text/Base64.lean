/-!
# Base 64

Bytes written as letters, four for every three bytes.  Characters outside of the alphabet are
skipped; padding is needed only where letters are missing.
-/

namespace EnvAudit.Text.Base64

def sextet? (c : Char) : Option Nat :=
  if c.isUpper then some (c.toNat - 'A'.toNat)
  else if c.isLower then some (c.toNat - 'a'.toNat + 26)
  else if c.isDigit then some (c.toNat - '0'.toNat + 52)
  else if c == '+' then some 62
  else if c == '/' then some 63
  else none

/-- Reads letters; `group` is the position in the group of four, `bits` what is left over of the last
letter, and `pads` the padding seen since. -/
def decodeFrom (group bits pads : Nat) : List Char → Option (List UInt8)
  | [] => if group = 0 then some [] else none
  | '=' :: rest =>
    if 2 ≤ group ∧ 4 ≤ group + (pads + 1) then some [] else decodeFrom group bits (pads + 1) rest
  | c :: rest =>
    match sextet? c with
    | none => decodeFrom group bits pads rest
    | some v =>
      match group with
      | 0 => decodeFrom 1 v 0 rest
      | 1 => (decodeFrom 2 (v % 16) 0 rest).map ((bits * 4 + v / 16).toUInt8 :: ·)
      | 2 => (decodeFrom 3 (v % 4) 0 rest).map ((bits * 16 + v / 4).toUInt8 :: ·)
      | _ => (decodeFrom 0 0 0 rest).map ((bits * 64 + v).toUInt8 :: ·)

def decode? (text : List Char) : Option (List UInt8) := decodeFrom 0 0 0 text

end EnvAudit.Text.Base64
