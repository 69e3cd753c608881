import EnvAudit.Text.Utf8
import Mathlib.Data.List.Basic

/-!
# Decoding what was encoded

The bytes of a character decode to the character, and bytes that decode as a whole can be followed by
others without any influence on these.
-/

namespace EnvAudit.Text.Utf8

theorem toNat_ofNat {n : Nat} (h : n < 256) : (UInt8.ofNat n).toNat = n := by
  rw [UInt8.toNat_ofNat', Nat.mod_eq_of_lt h]

theorem piecesAfter_cons {pending next : Option Pending} {byte : Nat}
    {pieces : List (Option Char)} (hbyte : byte < 256) (h : step pending byte = (next, pieces))
    (rest : List UInt8) :
    piecesAfter pending (UInt8.ofNat byte :: rest) = pieces ++ piecesAfter next rest := by
  rw [piecesAfter, toNat_ofNat hbyte, h]

/-- The last byte of a sequence completes the bits of its character. -/
theorem piecesAfter_last {p : Pending} {v : Nat} (hmissing : p.missing = 1)
    (hbits : p.bits = v / 64) (hlow : p.low ≤ v % 64 + 0x80) (hhigh : v % 64 + 0x80 ≤ p.high)
    (rest : List UInt8) :
    piecesAfter (some p) (UInt8.ofNat (v % 64 + 0x80) :: rest) =
      some (Char.ofNat v) :: piecesAfter none rest := by
  have hstep : step (some p) (v % 64 + 0x80) = (none, [some (Char.ofNat v)]) := by
    have hv : p.bits * 64 + v % 64 = v := by omega
    simp [step, hlow, hhigh, hmissing, hv]
  exact piecesAfter_cons (by omega) hstep rest

/-- Any other byte of a sequence adds its bits. -/
theorem piecesAfter_more {p : Pending} {v : Nat} (hmissing : 1 < p.missing)
    (hbits : p.bits = v / 64) (hlow : p.low ≤ v % 64 + 0x80) (hhigh : v % 64 + 0x80 ≤ p.high)
    (rest : List UInt8) :
    piecesAfter (some p) (UInt8.ofNat (v % 64 + 0x80) :: rest) =
      piecesAfter (some ⟨p.missing - 1, v, 0x80, 0xbf⟩) rest := by
  have hstep : step (some p) (v % 64 + 0x80) = (some ⟨p.missing - 1, v, 0x80, 0xbf⟩, []) := by
    have hv : p.bits * 64 + v % 64 = v := by omega
    simp [step, hlow, hhigh, Nat.not_le.2 hmissing, hv]
  exact piecesAfter_cons (by omega) hstep rest

theorem piecesAfter_opening {p : Pending} {byte : Nat} (hascii : 0x80 ≤ byte) (hbyte : byte < 256)
    (hopening : opening? byte = some p) (rest : List UInt8) :
    piecesAfter none (UInt8.ofNat byte :: rest) = piecesAfter (some p) rest := by
  have hstep : step none byte = (some p, []) := by
    simp [step, start, Nat.not_lt.2 hascii, hopening]
  exact piecesAfter_cons hbyte hstep rest

theorem opening?_two {v : Nat} (hlow : 0x80 ≤ v) (hhigh : v ≤ 0x7ff) :
    opening? (v / 64 % 32 + 0xc0) = some ⟨1, v / 64, 0x80, 0xbf⟩ := by
  have hbits : v / 64 % 32 + 0xc0 - 0xc0 = v / 64 := by omega
  rw [opening?, if_pos (by omega), hbits]

/-- What the second byte of three may be leaves out short forms and surrogates. -/
theorem opening?_three {v : Nat} (hlow : 0x800 ≤ v) (hhigh : v ≤ 0xffff)
    (hvalid : v < 0xd800 ∨ 0xdfff < v) :
    ∃ p, opening? (v / 4096 % 16 + 0xe0) = some p ∧ p.missing = 2 ∧ p.bits = v / 64 / 64 ∧
      p.low ≤ v / 64 % 64 + 0x80 ∧ v / 64 % 64 + 0x80 ≤ p.high := by
  rw [opening?]
  split
  · omega
  split
  · exact ⟨_, rfl, rfl, by simp only; omega, by simp only; omega, by simp only; omega⟩
  split
  · exact ⟨_, rfl, rfl, by simp only; omega, by simp only; omega, by simp only; omega⟩
  split
  · exact ⟨_, rfl, rfl, by simp only; omega, by simp only; omega, by simp only; omega⟩
  · omega

/-- What the second byte of four may be leaves out short forms and what is no code point. -/
theorem opening?_four {v : Nat} (hlow : 0x10000 ≤ v) (hhigh : v ≤ 0x10ffff) :
    ∃ p, opening? (v / 262144 % 8 + 0xf0) = some p ∧ p.missing = 3 ∧ p.bits = v / 4096 / 64 ∧
      p.low ≤ v / 4096 % 64 + 0x80 ∧ v / 4096 % 64 + 0x80 ≤ p.high := by
  rw [opening?, if_neg (by omega), if_neg (by omega), if_neg (by omega), if_neg (by omega)]
  split
  · exact ⟨_, rfl, rfl, by simp only; omega, by simp only; omega, by simp only; omega⟩
  split
  · exact ⟨_, rfl, rfl, by simp only; omega, by simp only; omega, by simp only; omega⟩
  split
  · exact ⟨_, rfl, rfl, by simp only; omega, by simp only; omega, by simp only; omega⟩
  · omega

/-- The bytes of a character decode to it. -/
theorem piecesAfter_utf8EncodeChar (c : Char) (rest : List UInt8) :
    piecesAfter none (String.utf8EncodeChar c ++ rest) = some c :: piecesAfter none rest := by
  have hvalid : c.val.toNat < 0xd800 ∨ 0xdfff < c.val.toNat ∧ c.val.toNat < 0x110000 := c.valid
  have hchar : some (Char.ofNat c.val.toNat) = some c := congrArg some c.ofNat_toNat
  rw [String.utf8EncodeChar]
  split
  · have hstep : step none c.val.toNat = (none, [some (Char.ofNat c.val.toNat)]) := by
      rw [step, start, if_pos (by omega)]
    rw [List.singleton_append, piecesAfter_cons (by omega) hstep, hchar, List.singleton_append]
  split
  · rw [List.cons_append, List.singleton_append,
      piecesAfter_opening (by omega) (by omega) (opening?_two (by omega) (by omega)),
      piecesAfter_last rfl rfl (by simp) (by simp only; omega), hchar]
  split
  · obtain ⟨p, hopening, hmissing, hbits, hlow, hhigh⟩ :=
      opening?_three (v := c.val.toNat) (by omega) (by omega) (by omega)
    rw [List.cons_append, List.cons_append, List.singleton_append,
      piecesAfter_opening (by omega) (by omega) hopening,
      piecesAfter_more (by omega) hbits hlow hhigh,
      piecesAfter_last (by simp only; omega) rfl (by simp) (by simp only; omega), hchar]
  · obtain ⟨p, hopening, hmissing, hbits, hlow, hhigh⟩ :=
      opening?_four (v := c.val.toNat) (by omega) (by omega)
    rw [List.cons_append, List.cons_append, List.cons_append, List.singleton_append,
      piecesAfter_opening (by omega) (by omega) hopening,
      piecesAfter_more (by omega) hbits hlow hhigh,
      piecesAfter_more (by simp only; omega) (by simp only; omega) (by simp) (by simp only; omega),
      piecesAfter_last (by simp only; omega) rfl (by simp) (by simp only; omega), hchar]

/-- The bytes of a text decode to its characters. -/
theorem piecesAfter_utf8 (text : List Char) (rest : List UInt8) :
    piecesAfter none (text.flatMap String.utf8EncodeChar ++ rest) =
      text.map some ++ piecesAfter none rest := by
  induction text with
  | nil => rfl
  | cons c text ih =>
      rw [List.flatMap_cons, List.append_assoc, piecesAfter_utf8EncodeChar, ih, List.map_cons,
        List.cons_append]

/-- Bytes that decode as a whole end at the end of a character. -/
theorem piecesAfter_append {pending : Option Pending} {bytes : List UInt8}
    (h : none ∉ piecesAfter pending bytes) (rest : List UInt8) :
    piecesAfter pending (bytes ++ rest) =
      piecesAfter pending bytes ++ piecesAfter none rest := by
  induction bytes generalizing pending with
  | nil =>
      cases pending with
      | none => rfl
      | some p => simp [piecesAfter] at h
  | cons byte bytes ih =>
      simp only [piecesAfter, List.mem_append, not_or] at h
      simp only [List.cons_append, piecesAfter, ih h.2, List.append_assoc]

theorem mapM_id_eq_some_iff {pieces : List (Option Char)} {text : List Char} :
    pieces.mapM id = some text ↔ pieces = text.map some := by
  induction pieces generalizing text with
  | nil => cases text <;> simp
  | cons piece pieces ih =>
      rw [List.mapM_cons]
      cases piece with
      | none => cases text <;> simp
      | some c =>
          cases text <;> simp [Option.bind_eq_some_iff, ih, and_comm]

theorem decode?_eq_some_iff {bytes : ByteArray} {text : List Char} :
    decode? bytes = some text ↔ piecesAfter none bytes.data.toList = text.map some :=
  mapM_id_eq_some_iff

/-- A text that is added to bytes that decode is decoded behind them. -/
theorem decode?_append_toUTF8 {bytes : ByteArray} {text : List Char}
    (h : decode? bytes = some text) (added : String) :
    decode? (bytes ++ added.toUTF8) = some (text ++ added.toList) := by
  rw [decode?_eq_some_iff] at h ⊢
  have hbytes : added.toUTF8.data.toList = added.toList.flatMap String.utf8EncodeChar := by
    have hencode : added.toUTF8 = added.toList.utf8Encode := String.utf8Encode_toList.symm
    rw [hencode, List.utf8Encode, List.toList_data_toByteArray]
  have hnone : none ∉ piecesAfter none bytes.data.toList := by
    rw [h]
    simp
  rw [ByteArray.toList_data_append, piecesAfter_append hnone, h, hbytes, List.map_append]
  simpa [piecesAfter] using piecesAfter_utf8 added.toList []

end EnvAudit.Text.Utf8
