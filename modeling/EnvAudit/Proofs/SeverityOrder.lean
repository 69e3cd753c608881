import Mathlib
import EnvAudit.Severity

/-!
# The order of severities

Severities are linearly ordered by rank.  The higher of two optional severities is their supremum,
with the absent one at the bottom.
-/

namespace EnvAudit.Severity

theorem rank_injective : Function.Injective rank := by
  intro left right heq
  cases left <;> cases right <;> first | rfl | simp [rank] at heq

theorem le_iff_rank_le {a b : Severity} : a ≤ b ↔ a.rank ≤ b.rank := Iff.rfl

theorem lt_iff_rank_lt {a b : Severity} : a < b ↔ a.rank < b.rank := Iff.rfl

instance : LinearOrder Severity where
  le := (· ≤ ·)
  lt := (· < ·)
  le_refl a := Nat.le_refl a.rank
  le_trans _ _ _ hab hbc := Nat.le_trans hab hbc
  lt_iff_le_not_ge _ _ := by
    rw [le_iff_rank_le, le_iff_rank_le, lt_iff_rank_lt]
    omega
  le_antisymm _ _ hab hba := rank_injective (Nat.le_antisymm hab hba)
  le_total a b := Nat.le_total a.rank b.rank
  max := max
  max_def a b := by
    change (if b ≤ a then a else b) = if a ≤ b then b else a
    have htotal := Nat.le_total a.rank b.rank
    by_cases hab : a ≤ b <;> by_cases hba : b ≤ a
    · rw [if_pos hab, if_pos hba]
      exact rank_injective (Nat.le_antisymm hab hba)
    · rw [if_pos hab, if_neg hba]
    · rw [if_neg hab, if_pos hba]
    · exact absurd htotal (not_or.2 ⟨hab, hba⟩)
  toDecidableLE := inferInstance
  toDecidableLT := inferInstance
  toDecidableEq := inferInstance

/-- A severity that may be absent, where an absent one is below every other. -/
def level (severity : Option Severity) : WithBot Severity := severity

theorem level_injective : Function.Injective level := fun _ _ heq => heq

/-- The higher of two optional severities is their supremum where an absent severity is below every
other one. -/
theorem higher?_eq_sup (a b : WithBot Severity) : (higher? a b : WithBot Severity) = a ⊔ b := by
  cases a with
  | bot => exact (bot_sup_eq b).symm
  | coe a =>
      cases b with
      | bot => exact (sup_bot_eq (a : WithBot Severity)).symm
      | coe b => exact WithBot.coe_sup a b

theorem level_higher? (a b : Option Severity) : level (higher? a b) = level a ⊔ level b :=
  higher?_eq_sup a b

end EnvAudit.Severity
