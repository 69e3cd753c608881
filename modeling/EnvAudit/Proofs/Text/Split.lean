import EnvAudit.Text.Split
import Mathlib.Data.List.Basic

/-!
# Splitting and joining

A separator cuts a text into what stands before it and what stands after it.  Splitting therefore
undoes joining, as long as no piece holds the separator itself.
-/

namespace EnvAudit.Text

variable {separator : Char}

section Where

variable {isSeparator : Char → Bool} {c : Char} {text : List Char}

theorem splitWhere_cons_of_pos (h : isSeparator c = true) (text : List Char) :
    splitWhere isSeparator (c :: text) = [] :: splitWhere isSeparator text := by
  rw [splitWhere, if_pos h]

theorem splitWhere_cons_of_neg (h : isSeparator c = false) (text : List Char) :
    splitWhere isSeparator (c :: text) = consFirst c (splitWhere isSeparator text) := by
  rw [splitWhere, if_neg (by simp [h])]

theorem splitWhere_append_cons (h : isSeparator c = true) (front rest : List Char) :
    splitWhere isSeparator (front ++ c :: rest) =
      splitWhere isSeparator front ++ splitWhere isSeparator rest := by
  induction front with
  | nil =>
      rw [List.nil_append, splitWhere_cons_of_pos h]
      rfl
  | cons d front ih =>
      cases hd : isSeparator d with
      | true =>
          rw [List.cons_append, splitWhere_cons_of_pos hd, splitWhere_cons_of_pos hd, ih,
            List.cons_append]
      | false =>
          rw [List.cons_append, splitWhere_cons_of_neg hd, splitWhere_cons_of_neg hd, ih]
          obtain ⟨piece, more, hsplit⟩ :=
            List.exists_cons_of_ne_nil (splitWhere_ne_nil isSeparator front)
          simp only [hsplit, List.cons_append, consFirst]

theorem splitWhere_of_forall (h : ∀ c ∈ text, isSeparator c = false) :
    splitWhere isSeparator text = [text] := by
  induction text with
  | nil => rfl
  | cons c text ih =>
      obtain ⟨hc, htext⟩ := List.forall_mem_cons.1 h
      rw [splitWhere_cons_of_neg hc, ih htext, consFirst]

end Where

theorem splitOn_cons_self (text : List Char) :
    splitOn separator (separator :: text) = [] :: splitOn separator text :=
  splitWhere_cons_of_pos (by simp) text

theorem splitOn_cons_of_ne {c : Char} (h : c ≠ separator) (text : List Char) :
    splitOn separator (c :: text) = consFirst c (splitOn separator text) :=
  splitWhere_cons_of_neg (by simpa using h) text

theorem splitOn_append_cons (front rest : List Char) :
    splitOn separator (front ++ separator :: rest) =
      splitOn separator front ++ splitOn separator rest :=
  splitWhere_append_cons (by simp) front rest

theorem splitOn_of_notMem {text : List Char} (h : separator ∉ text) :
    splitOn separator text = [text] :=
  splitWhere_of_forall fun _ hc => beq_false_of_ne (ne_of_mem_of_not_mem hc h)

/-- Splitting undoes joining. -/
theorem splitOn_intercalate {pieces : List (List Char)} (hne : pieces ≠ [])
    (h : ∀ piece ∈ pieces, separator ∉ piece) :
    splitOn separator ([separator].intercalate pieces) = pieces := by
  induction pieces with
  | nil => exact absurd rfl hne
  | cons piece more ih =>
      have hpiece : separator ∉ piece := h piece List.mem_cons_self
      by_cases hmore : more = []
      · rw [hmore, List.intercalate_singleton, splitOn_of_notMem hpiece]
      · have hrest := ih hmore fun p hp => h p (List.mem_cons_of_mem piece hp)
        rw [List.intercalate_cons_of_ne_nil hmore, List.append_assoc, List.singleton_append,
          splitOn_append_cons, splitOn_of_notMem hpiece, hrest, List.singleton_append]

theorem mem_intercalate {pieces : List (List Char)} {c : Char} (h : c ∈ [separator].intercalate pieces) :
    c = separator ∨ ∃ piece ∈ pieces, c ∈ piece := by
  induction pieces with
  | nil => cases h
  | cons piece more ih =>
      by_cases hmore : more = []
      · rw [hmore, List.intercalate_singleton] at h
        exact .inr ⟨piece, List.mem_cons_self, h⟩
      · rw [List.intercalate_cons_of_ne_nil hmore, List.mem_append, List.mem_append,
          List.mem_singleton] at h
        rcases h with (h | rfl) | h
        · exact .inr ⟨piece, List.mem_cons_self, h⟩
        · exact .inl rfl
        · exact (ih h).imp_right fun ⟨other, hother, hc⟩ => ⟨other, List.mem_cons_of_mem piece hother, hc⟩

/-- Joining the pieces of a text gives the text. -/
theorem intercalate_splitOn (text : List Char) :
    [separator].intercalate (splitOn separator text) = text := by
  induction text with
  | nil => rfl
  | cons c text ih =>
      obtain ⟨piece, more, hsplit⟩ :=
        List.exists_cons_of_ne_nil (splitWhere_ne_nil (· == separator) text)
      have hsplit : splitOn separator text = piece :: more := hsplit
      by_cases hc : c = separator
      · rw [hc, splitOn_cons_self, List.intercalate_cons_of_ne_nil (by simp [hsplit]), ih]
        rfl
      · rw [splitOn_cons_of_ne hc, hsplit, consFirst]
        rw [hsplit] at ih
        cases more with
        | nil =>
            rw [List.intercalate_singleton] at ih ⊢
            rw [ih]
        | cons =>
            rw [List.intercalate_cons_of_ne_nil (List.cons_ne_nil _ _)] at ih ⊢
            rw [← ih]
            rfl

/-- The pieces of a text hold its characters, the separator aside. -/
theorem mem_of_mem_splitOn {text piece : List Char} (h : piece ∈ splitOn separator text) {c : Char}
    (hc : c ∈ piece) : c ≠ separator ∧ c ∈ text := by
  induction text generalizing piece with
  | nil =>
      rw [splitOn, splitWhere, List.mem_singleton] at h
      simp [h] at hc
  | cons first text ih =>
      by_cases hfirst : first = separator
      · rw [hfirst, splitOn_cons_self] at h
        rcases List.mem_cons.1 h with rfl | h
        · cases hc
        · exact ⟨(ih h hc).1, List.mem_cons_of_mem first (ih h hc).2⟩
      · obtain ⟨head, more, hsplit⟩ :=
          List.exists_cons_of_ne_nil (splitWhere_ne_nil (· == separator) text)
        have hsplit : splitOn separator text = head :: more := hsplit
        rw [splitOn_cons_of_ne hfirst, hsplit, consFirst] at h
        rw [hsplit] at ih
        rcases List.mem_cons.1 h with rfl | h
        · rcases List.mem_cons.1 hc with rfl | hc
          · exact ⟨hfirst, List.mem_cons_self⟩
          · have hhead := ih List.mem_cons_self hc
            exact ⟨hhead.1, List.mem_cons_of_mem first hhead.2⟩
        · have hpiece := ih (List.mem_cons_of_mem head h) hc
          exact ⟨hpiece.1, List.mem_cons_of_mem first hpiece.2⟩

/-! ## Parts of a text -/

section Stop

variable {stop c : Char} {front : List Char}

theorem upTo_append (h : stop ∉ front) (rest : List Char) :
    upTo stop (front ++ rest) = front ++ upTo stop rest :=
  List.takeWhile_append_of_pos fun _ hc => bne_iff_ne.2 (ne_of_mem_of_not_mem hc h)

theorem upTo_cons_self (rest : List Char) : upTo stop (stop :: rest) = [] :=
  List.takeWhile_cons_of_neg (by simp)

theorem upTo_cons_of_ne (h : c ≠ stop) (rest : List Char) :
    upTo stop (c :: rest) = c :: upTo stop rest :=
  List.takeWhile_cons_of_pos (bne_iff_ne.2 h)

end Stop

theorem occurs_iff_infix {part text : List Char} : occurs part text = true ↔ part <:+: text := by
  induction text with
  | nil => rw [occurs, List.isEmpty_iff, List.infix_nil]
  | cons c text ih =>
      rw [occurs, Bool.or_eq_true, List.isPrefixOf_iff_prefix, ih, List.infix_cons_iff]

end EnvAudit.Text
