import EnvAudit.Text.Newline
import Mathlib.Data.List.Infix

/-!
# Line ends of joined texts

Line ends can be unified piece by piece, as long as no piece ends between the two characters of one
line end.
-/

namespace EnvAudit.Text

theorem notMem_unifyNewlines (text : List Char) : '\r' ∉ unifyNewlines text := by
  fun_induction unifyNewlines text with
  | case1 => simp
  | case2 rest ih => simpa using ih
  | case3 rest hne ih => simpa using ih
  | case4 c rest hcrlf hcr ih =>
      rw [List.mem_cons, not_or]
      exact ⟨fun h => hcr h.symm, ih⟩

theorem unifyNewlines_cons_of_ne {c : Char} (h : c ≠ '\r') (text : List Char) :
    unifyNewlines (c :: text) = c :: unifyNewlines text := by
  rw [unifyNewlines]
  · exact fun rest heq => absurd heq h
  · exact h

/-- A return that no line feed follows is a line end of its own. -/
theorem unifyNewlines_return {c : Char} (h : c ≠ '\n') (text : List Char) :
    unifyNewlines ('\r' :: c :: text) = '\n' :: unifyNewlines (c :: text) := by
  rw [unifyNewlines]
  exact fun rest heq => h (List.cons.inj heq).1

theorem unifyNewlines_append_of_notMem {front : List Char} (h : '\r' ∉ front)
    (text : List Char) : unifyNewlines (front ++ text) = front ++ unifyNewlines text := by
  induction front with
  | nil => rfl
  | cons c front ih =>
      rw [List.mem_cons, not_or] at h
      rw [List.cons_append, unifyNewlines_cons_of_ne (Ne.symm h.1), ih h.2, List.cons_append]

theorem unifyNewlines_eq_self {text : List Char} (h : '\r' ∉ text) : unifyNewlines text = text := by
  have happend := unifyNewlines_append_of_notMem h []
  rwa [List.append_nil, unifyNewlines, List.append_nil] at happend

/-- Line ends are unified piece by piece where no line end is cut in two. -/
theorem unifyNewlines_append {front text : List Char} (h : ['\r'] <:+ front → ¬ ['\n'] <+: text) :
    unifyNewlines (front ++ text) = unifyNewlines front ++ unifyNewlines text := by
  fun_induction unifyNewlines front with
  | case1 => rfl
  | case2 rest ih =>
      have hrest := ih fun hend => h (hend.trans (List.suffix_append ['\r', '\n'] rest))
      exact congrArg ('\n' :: ·) hrest
  | case3 rest hne ih =>
      have hrest := ih fun hend => h (hend.trans (List.suffix_cons '\r' rest))
      cases rest with
      | nil =>
          cases text with
          | nil => rfl
          | cons c text =>
              have hc : c ≠ '\n' := fun heq => h List.suffix_rfl (heq ▸ List.prefix_append [c] text)
              exact unifyNewlines_return hc text
      | cons c rest =>
          have hc : c ≠ '\n' := fun heq => hne rest (by rw [heq])
          rw [List.cons_append] at hrest
          rw [List.cons_append, List.cons_append, unifyNewlines_return hc, hrest, List.cons_append]
  | case4 c rest hcrlf hcr ih =>
      have hrest := ih fun hend => h (hend.trans (List.suffix_cons c rest))
      rw [List.cons_append, unifyNewlines_cons_of_ne hcr, hrest, List.cons_append]

/-- A text can be cut at a character that belongs to no line end. -/
theorem unifyNewlines_append_cons {c : Char} (hreturn : c ≠ '\r') (hfeed : c ≠ '\n')
    (front text : List Char) :
    unifyNewlines (front ++ c :: text) = unifyNewlines front ++ c :: unifyNewlines text := by
  have hcut : ¬ ['\n'] <+: c :: text := fun h => hfeed (List.cons_prefix_cons.1 h).1.symm
  rw [unifyNewlines_append fun _ => hcut, unifyNewlines_cons_of_ne hreturn]

/-- A text can be cut in front of a line end. -/
theorem unifyNewlines_append_return (front text : List Char) :
    unifyNewlines (front ++ '\r' :: text) = unifyNewlines front ++ unifyNewlines ('\r' :: text) :=
  unifyNewlines_append fun _ h => absurd (List.cons_prefix_cons.1 h).1 (by decide)

theorem exists_concat_return_or_unifyNewlines_append (front : List Char) :
    (∃ before, front = before ++ ['\r']) ∨
      ∀ text, unifyNewlines (front ++ text) = unifyNewlines front ++ unifyNewlines text := by
  by_cases hend : ['\r'] <:+ front
  · obtain ⟨before, heq⟩ := hend
    exact .inl ⟨before, heq.symm⟩
  · exact .inr fun text => unifyNewlines_append fun h => absurd h hend

/-- A text can be cut after a line feed. -/
theorem unifyNewlines_append_newline (front text : List Char) :
    unifyNewlines (front ++ '\n' :: text) =
      unifyNewlines (front ++ ['\n']) ++ unifyNewlines text := by
  rcases exists_concat_return_or_unifyNewlines_append front with ⟨before, rfl⟩ | happend
  · rw [List.append_assoc, List.append_assoc, List.singleton_append, List.singleton_append,
      unifyNewlines_append_return, unifyNewlines_append_return, List.append_assoc]
    rfl
  · rw [happend, happend, List.append_assoc]
    rfl

theorem unifyNewlines_concat_newline (front : List Char) :
    ∃ before, unifyNewlines (front ++ ['\n']) = before ++ ['\n'] := by
  rcases exists_concat_return_or_unifyNewlines_append front with ⟨before, rfl⟩ | happend
  · rw [List.append_assoc, List.singleton_append, unifyNewlines_append_return]
    exact ⟨_, rfl⟩
  · exact ⟨_, happend ['\n']⟩

/-- A line feed at the end is a line end of its own or completes one. -/
theorem exists_unifyNewlines_concat (front : List Char) :
    ∃ more, unifyNewlines (front ++ ['\n']) = unifyNewlines front ++ more ∧ more ⊆ ['\n'] := by
  rcases exists_concat_return_or_unifyNewlines_append front with ⟨before, rfl⟩ | happend
  · refine ⟨[], ?_, List.nil_subset _⟩
    rw [List.append_assoc, List.singleton_append, unifyNewlines_append_return,
      unifyNewlines_append_return, List.append_nil]
    rfl
  · exact ⟨['\n'], happend ['\n'], List.Subset.refl _⟩

/-- What is added to the end of a text leaves the lines before it as they are. -/
theorem unifyNewlines_prefix (front text : List Char) :
    unifyNewlines front <+: unifyNewlines (front ++ text) := by
  rcases exists_concat_return_or_unifyNewlines_append front with ⟨before, rfl⟩ | happend
  · rw [List.append_assoc, List.singleton_append, unifyNewlines_append_return,
      unifyNewlines_append_return, List.prefix_append_right_inj]
    cases text with
    | nil => exact List.prefix_rfl
    | cons c text =>
        by_cases hc : c = '\n'
        · subst hc
          exact ⟨unifyNewlines text, rfl⟩
        · rw [unifyNewlines_return hc]
          exact ⟨_, rfl⟩
  · exact ⟨_, (happend text).symm⟩

/-- The line end that a character is when a text is read; other characters stay. -/
def lineEndOf (c : Char) : Char := if c = '\r' then '\n' else c

/-- Without line feeds, each carriage return is a line end of its own. -/
theorem unifyNewlines_of_notMem {text : List Char} (h : '\n' ∉ text) :
    unifyNewlines text = text.map lineEndOf := by
  induction text with
  | nil => rfl
  | cons c text ih =>
      rw [List.mem_cons, not_or] at h
      have ih := ih h.2
      by_cases hc : c = '\r'
      · subst hc
        cases text with
        | nil => rfl
        | cons d text =>
            have hd : d ≠ '\n' := fun heq => h.2 (by rw [heq]; exact List.mem_cons_self)
            rw [unifyNewlines_return hd, ih]
            rfl
      · rw [unifyNewlines_cons_of_ne hc, ih, List.map_cons, lineEndOf, if_neg hc]

end EnvAudit.Text
