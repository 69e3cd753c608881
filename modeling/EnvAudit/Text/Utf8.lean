/-!
# UTF-8

Decoding of bytes one at a time.  A byte that cannot extend the sequence in hand ends it as
undecodable and starts anew, so damage never spreads past the longest broken sequence.
-/

namespace EnvAudit.Text.Utf8

/-- A sequence of which some bytes are still missing: how many, the bits read so far, and the
bounds of the next byte. -/
structure Pending where
  missing : Nat
  bits : Nat
  low : Nat
  high : Nat
deriving Repr, DecidableEq

/-- The sequence that a lead byte opens, if it is one.  The bounds of the second byte exclude
overlong forms, surrogates and code points above the last one. -/
def opening? (byte : Nat) : Option Pending :=
  if 0xc2 ≤ byte ∧ byte ≤ 0xdf then some ⟨1, byte - 0xc0, 0x80, 0xbf⟩
  else if byte = 0xe0 then some ⟨2, 0, 0xa0, 0xbf⟩
  else if byte = 0xed then some ⟨2, 0xd, 0x80, 0x9f⟩
  else if 0xe1 ≤ byte ∧ byte ≤ 0xef then some ⟨2, byte - 0xe0, 0x80, 0xbf⟩
  else if byte = 0xf0 then some ⟨3, 0, 0x90, 0xbf⟩
  else if 0xf1 ≤ byte ∧ byte ≤ 0xf3 then some ⟨3, byte - 0xf0, 0x80, 0xbf⟩
  else if byte = 0xf4 then some ⟨3, 4, 0x80, 0x8f⟩
  else none

/-- Reads a byte that no sequence is waiting for.  A piece is a character, or `none` for bytes that
are not one. -/
def start (byte : Nat) : Option Pending × List (Option Char) :=
  if byte < 0x80 then (none, [some (Char.ofNat byte)])
  else match opening? byte with
    | some pending => (some pending, [])
    | none => (none, [none])

/-- Reads one byte after the sequence in hand. -/
def step (pending : Option Pending) (byte : Nat) : Option Pending × List (Option Char) :=
  match pending with
  | none => start byte
  | some p =>
    if p.low ≤ byte ∧ byte ≤ p.high then
      let bits := p.bits * 64 + (byte - 0x80)
      if p.missing ≤ 1 then (none, [some (Char.ofNat bits)])
      else (some ⟨p.missing - 1, bits, 0x80, 0xbf⟩, [])
    else
      let (next, pieces) := start byte
      (next, none :: pieces)

/-- The pieces of a byte sequence, after the sequence in hand. -/
def piecesAfter (pending : Option Pending) : List UInt8 → List (Option Char)
  | [] => if pending.isSome then [none] else []
  | byte :: rest =>
    let (next, pieces) := step pending byte.toNat
    pieces ++ piecesAfter next rest

/-- The text of a byte sequence, if all of it decodes. -/
def decode? (bytes : ByteArray) : Option (List Char) := (piecesAfter none bytes.data.toList).mapM id

/-- The text of a byte sequence without the bytes that do not decode. -/
def decodeLossy (bytes : ByteArray) : List Char := (piecesAfter none bytes.data.toList).filterMap id

end EnvAudit.Text.Utf8
