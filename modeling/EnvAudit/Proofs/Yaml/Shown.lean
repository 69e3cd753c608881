import EnvAudit.Proofs.Result
import EnvAudit.Yaml.Value

/-!
# Values that can be shown

What a document says is read off its values by taking fields and items out of them and showing them as
texts.  Only a number of too many digits has no text.
-/

namespace EnvAudit.Yaml.Value

/-- Only a map has fields. -/
theorem isMap_of_field? {v found : Value} {key : String} (h : v.field? key = some found) :
    v.isMap = true := by
  cases v <;> first | rfl | cases h

theorem field?_of_not_isMap {v : Value} (h : v.isMap = false) (key : String) : v.field? key = none :=
  Option.eq_none_iff_forall_ne_some.2 fun _ hfound =>
    absurd (isMap_of_field? hfound) (by rw [h]; exact Bool.false_ne_true)

/-- A value has a text unless a number in it is too long. -/
def HasText (v : Value) : Prop := ∃ text, v.shown = .ok text

theorem HasText.shown_eq {v : Value} (h : v.HasText) : v.shown = .ok v.toText := by
  obtain ⟨text, htext⟩ := h
  rw [shown] at htext ⊢
  split at htext
  · cases htext
  · rw [if_neg ‹_›]

theorem hasText_iff {v : Value} : v.HasText ↔ v.mostDigits ≤ digitLimit := by
  rw [HasText, shown]
  split
  · exact ⟨nofun, fun h => absurd h (Nat.not_le.2 ‹_›)⟩
  · exact ⟨fun _ => Nat.not_lt.1 ‹_›, fun _ => ⟨_, rfl⟩⟩

instance (v : Value) : Decidable v.HasText := decidable_of_iff _ hasText_iff.symm

theorem mapM_shown {items : List Value} (h : ∀ item ∈ items, item.HasText) :
    items.mapM (·.shown) = .ok (items.map toText) :=
  mapM_eq_ok_map fun item hitem => (h item hitem).shown_eq

/-- The items of a list; anything else has none. -/
def itemsOf (v : Option Value) : List Value := (v.bind items?).getD []

theorem itemsOf_some (v : Value) : itemsOf (some v) = v.items?.getD [] := rfl

/-- Only an empty list counts as nothing, and it has no items. -/
theorem items?_of_not_isTruthy {v : Value} (h : v.isTruthy = false) :
    v.items?.getD [] = [] := by
  cases v with
  | list items =>
      cases items with
      | nil => rfl
      | cons item items => cases h
  | _ => rfl

end EnvAudit.Yaml.Value
