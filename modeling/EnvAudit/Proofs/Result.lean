import Mathlib.Data.List.Forall2

/-!
# Results that may be errors

A result is an outcome or an error.  What is done to the items of a list one after the other has an
outcome if it has one for each of them, and a search among them ends with the first item that it finds
or that is an error.
-/

namespace EnvAudit

variable {ε α β : Type}

theorem isOk_iff {x : Except ε α} : x.isOk = true ↔ ∃ a, x = .ok a := by
  cases x <;> simp [Except.isOk, Except.toBool]

theorem isOk_bind_pure (x : Except ε α) (f : α → β) : (x >>= fun a => pure (f a)).isOk = x.isOk := by
  cases x <;> rfl

theorem map_eq_ok_iff {x : Except ε α} {f : α → β} {b : β} :
    x.map f = .ok b ↔ ∃ a, x = .ok a ∧ f a = b := by
  cases x <;> simp [Except.map]

theorem mapError_eq_error_iff {ε' : Type} {x : Except ε α} {f : ε → ε'} {cause : ε'} :
    x.mapError f = .error cause ↔ ∃ error, x = .error error ∧ f error = cause := by
  cases x <;> simp [Except.mapError]

theorem bind_eq_ok_iff {x : Except ε α} {f : α → Except ε β} {b : β} :
    x >>= f = .ok b ↔ ∃ a, x = .ok a ∧ f a = .ok b := by
  cases x <;> simp [bind, Except.bind]

theorem bind_eq_error_iff {x : Except ε α} {f : α → Except ε β} {cause : ε} :
    x >>= f = .error cause ↔ x = .error cause ∨ ∃ a, x = .ok a ∧ f a = .error cause := by
  cases x <;> simp [bind, Except.bind]

section MapM

variable {f : α → Except ε β} {l : List α} {made : List β} {a : α} {b : β}

theorem mapM_eq_ok_iff :
    l.mapM f = .ok made ↔ List.Forall₂ (fun a b => f a = .ok b) l made := by
  induction l generalizing made with
  | nil =>
      rw [List.mapM_nil, List.forall₂_nil_left_iff]
      exact ⟨fun h => (Except.ok.inj h).symm, fun h => congrArg Except.ok h.symm⟩
  | cons a l ih =>
      rw [List.mapM_cons, List.forall₂_cons_left_iff]
      simp only [← ih]
      cases f a with
      | error cause => simp [bind, Except.bind]
      | ok b =>
          cases l.mapM f with
          | error cause => simp [bind, Except.bind]
          | ok more => simp [bind, Except.bind, pure, Except.pure, eq_comm]

theorem mapM_eq_ok_map {g : α → β} (h : ∀ a ∈ l, f a = .ok (g a)) : l.mapM f = .ok (l.map g) :=
  mapM_eq_ok_iff.2 (List.forall₂_map_right_iff.2 (List.forall₂_same.2 h))

/-- What is done to each item of a list is done to every item in it. -/
theorem mem_of_mapM_eq_ok (h : l.mapM f = .ok made) (ha : a ∈ l) (hb : f a = .ok b) : b ∈ made := by
  induction mapM_eq_ok_iff.1 h with
  | nil => cases ha
  | cons hfirst hrest ih =>
      rcases List.mem_cons.1 ha with rfl | ha
      · obtain rfl := Except.ok.inj (hfirst.symm.trans hb)
        exact List.mem_cons_self
      · exact List.mem_cons_of_mem _ (ih (mapM_eq_ok_iff.2 hrest) ha)

end MapM

section AnyM

variable {f : α → Except ε Bool} {l : List α}

theorem anyM_cons (f : α → Except ε Bool) (a : α) (l : List α) :
    (a :: l).anyM f = (do if ← f a then return true else l.anyM f) := by
  rw [List.anyM]
  rcases f a with cause | _ | _ <;> rfl

theorem anyM_eq_ok_false_iff : l.anyM f = .ok false ↔ ∀ a ∈ l, f a = .ok false := by
  induction l with
  | nil => simp [List.anyM, pure, Except.pure]
  | cons a l ih =>
      rw [anyM_cons, List.forall_mem_cons, ← ih]
      rcases f a with cause | _ | _ <;> simp [bind, Except.bind, pure, Except.pure]

theorem exists_of_anyM_eq_ok_true (h : l.anyM f = .ok true) : ∃ a ∈ l, f a = .ok true := by
  induction l with
  | nil => cases h
  | cons a l ih =>
      rw [anyM_cons] at h
      cases hfirst : f a with
      | error cause =>
          rw [hfirst] at h
          cases h
      | ok answer =>
          cases answer with
          | true => exact ⟨a, List.mem_cons_self, hfirst⟩
          | false =>
              rw [hfirst] at h
              obtain ⟨b, hb, hanswer⟩ := ih h
              exact ⟨b, List.mem_cons_of_mem a hb, hanswer⟩

/-- A search that fails has passed over what is in front. -/
theorem exists_append_of_anyM_eq_error {cause : ε} (h : l.anyM f = .error cause) :
    ∃ front a rest, l = front ++ a :: rest ∧ (∀ b ∈ front, f b = .ok false) ∧ f a = .error cause := by
  induction l with
  | nil => cases h
  | cons a l ih =>
      rw [anyM_cons] at h
      cases hfirst : f a with
      | error other =>
          rw [hfirst] at h
          obtain rfl := Except.error.inj h
          exact ⟨[], a, l, rfl, by simp, hfirst⟩
      | ok answer =>
          rw [hfirst] at h
          cases answer with
          | true => cases h
          | false =>
              obtain ⟨front, b, rest, rfl, hfront, hanswer⟩ := ih h
              exact ⟨a :: front, b, rest, rfl, List.forall_mem_cons.2 ⟨hfirst, hfront⟩, hanswer⟩

theorem exists_of_anyM_eq_error {cause : ε} (h : l.anyM f = .error cause) :
    ∃ a ∈ l, f a = .error cause := by
  obtain ⟨front, a, rest, rfl, -, hanswer⟩ := exists_append_of_anyM_eq_error h
  exact ⟨a, List.mem_append_right _ List.mem_cons_self, hanswer⟩

end AnyM

end EnvAudit
