import EnvAudit.Pattern.CharClass
import EnvAudit.Proofs.Text.Word
import Mathlib.Data.Char

/-!
# The members of a class

What a class admits, for each way of making one.
-/

namespace EnvAudit.CharClass

variable {c : Char}

theorem admits_blank (c : Char) : blank.admits c = Text.isBlank c := by
  simp [blank, admits, itemAdmits, CharKind.admits, CaseRule.lower]

theorem admits_complement (k : CharClass) (c : Char) : k.complement.admits c = !k.admits c := by
  simp only [complement, admits]
  cases k.negated <;> simp

theorem admits_ofRanges (ranges : List (Char × Char)) (c : Char) :
    (ofRanges ranges).admits c = ranges.any fun (low, high) => low ≤ c && c ≤ high := by
  simp only [ofRanges, admits, List.any_map, Function.comp_def, itemAdmits, CaseRule.variants,
    List.any_cons, List.any_nil, Bool.or_false, Bool.bne_false]

theorem le_and_le_self (c d : Char) : (decide (d ≤ c) && decide (c ≤ d)) = (c == d) := by
  rw [Bool.eq_iff_iff, Bool.and_eq_true, decide_eq_true_eq, decide_eq_true_eq, beq_iff_eq]
  exact antisymm_iff.trans eq_comm

theorem between_upper (c : Char) : (decide ('A' ≤ c) && decide (c ≤ 'Z')) = c.isUpper := by
  rw [Bool.eq_iff_iff, Bool.and_eq_true, decide_eq_true_eq, decide_eq_true_eq,
    Text.isUpper_iff_toNat]
  rfl

theorem between_lower (c : Char) : (decide ('a' ≤ c) && decide (c ≤ 'z')) = c.isLower := by
  rw [Bool.eq_iff_iff, Bool.and_eq_true, decide_eq_true_eq, decide_eq_true_eq,
    Text.isLower_iff_toNat]
  rfl

theorem between_digit (c : Char) : (decide ('0' ≤ c) && decide (c ≤ '9')) = c.isDigit := by
  simp [Char.isDigit, Char.le_def]

theorem admits_ofChar (d c : Char) : (ofChar d).admits c = (c == d) := by
  simp only [ofChar, admits, itemAdmits, CaseRule.variants, List.any_cons, List.any_nil,
    Bool.or_false, Bool.bne_false, le_and_le_self]

theorem admits_ofString (members : String) (c : Char) :
    (ofString members).admits c = members.toList.contains c := by
  simp only [ofString, admits, List.any_map, Function.comp_def, itemAdmits, CaseRule.variants,
    List.any_cons, List.any_nil, Bool.or_false, Bool.bne_false, le_and_le_self]
  rw [List.any_beq]

theorem admits_union (a b : CharClass) (hrule : b.caseRule = a.caseRule) (ha : a.negated = false)
    (hb : b.negated = false) : (a.union b).admits c = (a.admits c || b.admits c) := by
  simp only [union, admits, List.any_append, hrule, ha, hb, Bool.bne_false]

end EnvAudit.CharClass
