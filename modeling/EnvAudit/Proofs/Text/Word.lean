import EnvAudit.Text.Word

/-!
# Word characters of ASCII

The ASCII letters, digits and the underscore are word characters.  A piece of a text is whole where none
of them stands beside it.
-/

namespace EnvAudit.Text

theorem isAsciiWord_eq (c : Char) :
    isAsciiWord c = (c.isUpper || c.isLower || c.isDigit || c == '_') := rfl

theorem isAlpha_eq (c : Char) : c.isAlpha = (c.isUpper || c.isLower) := rfl

theorem isUpper_iff_toNat {c : Char} :
    c.isUpper = true ↔ 'A'.toNat ≤ c.toNat ∧ c.toNat ≤ 'Z'.toNat :=
  decide_eq_true_iff

theorem isLower_iff_toNat {c : Char} :
    c.isLower = true ↔ 'a'.toNat ≤ c.toNat ∧ c.toNat ≤ 'z'.toNat :=
  (Bool.and_eq_true_iff).trans (and_congr decide_eq_true_iff decide_eq_true_iff)

theorem toNat_lt_of_isAsciiWord {c : Char} (h : isAsciiWord c = true) : c.toNat < 0x80 := by
  simp only [isAsciiWord_eq, Bool.or_eq_true, isUpper_iff_toNat, isLower_iff_toNat,
    Char.isDigit_iff_toNat, beq_iff_eq] at h
  have hZ : 'Z'.toNat = 90 := rfl
  have hz : 'z'.toNat = 122 := rfl
  have h9 : '9'.toNat = 57 := rfl
  rcases h with ((h | h) | h) | rfl
  · omega
  · omega
  · omega
  · decide

theorem isAsciiWord_eq_false {c : Char} (h : isWord c = false) : isAsciiWord c = false := by
  refine eq_false_of_ne_true fun hword => ?_
  rw [isWord, if_pos (toNat_lt_of_isAsciiWord hword), hword] at h
  cases h

/-- No ASCII letter, digit or underscore stands at the end of the text. -/
def WholeFront (front : List Char) : Prop := ∀ c ∈ front.getLast?, isAsciiWord c = false

/-- No ASCII letter, digit or underscore stands at the start of the text. -/
def WholeBack (back : List Char) : Prop := ∀ c ∈ back.head?, isAsciiWord c = false

end EnvAudit.Text
