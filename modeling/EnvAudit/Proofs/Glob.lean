import EnvAudit.Glob
import Mathlib.Data.List.Infix

/-!
# Globs of plain characters

A character that is none of the marks of globs stands for itself.  A glob without marks fits one text, one
that begins with stars fits the texts that end in what follows, and one that ends in stars fits the texts
that begin with what stands in front.
-/

namespace EnvAudit.Glob

variable {parts : List GlobPart} {text front rest : List Char} {c d : Char}

/-- Whether a character is no mark of a glob. -/
def IsPlain (c : Char) : Prop := c ≠ '*' ∧ c ≠ '?' ∧ c ≠ '['

instance (c : Char) : Decidable (IsPlain c) := inferInstanceAs (Decidable (_ ∧ _))

theorem partsAfter_cons (h : IsPlain c) (rest : List Char) :
    partsAfter 0 (c :: rest) = char c :: partsAfter 0 rest := by
  obtain ⟨hstar, hmark, hbracket⟩ := h
  rw [partsAfter]
  · exact fun heq => hstar heq
  · exact fun heq => hmark heq
  · exact fun heq => hbracket heq

theorem parse_append (h : ∀ c ∈ front, IsPlain c) (rest : List Char) :
    parse (front ++ rest) = front.map char ++ parse rest := by
  induction front with
  | nil => rfl
  | cons c front ih =>
      rw [List.forall_mem_cons] at h
      rw [parse] at ih ⊢
      rw [List.cons_append, partsAfter_cons h.1, ih h.2, List.map_cons, List.cons_append]

theorem parse_plain (h : ∀ c ∈ text, IsPlain c) : parse text = text.map char := by
  have happend := parse_append h []
  have hnil : parse [] = [] := rfl
  rwa [hnil, List.append_nil, List.append_nil] at happend

theorem admits_char : admits false [(c, c)] d = true ↔ d = c := by
  have hbetween : admits false [(c, c)] d = true ↔ c ≤ d ∧ d ≤ c := by simp [admits]
  rw [hbetween]
  constructor
  · rintro ⟨hlow, hhigh⟩
    exact Char.le_antisymm hhigh hlow
  · rintro rfl
    exact ⟨Char.le_refl d, Char.le_refl d⟩

/-- Parts for plain characters read these characters. -/
theorem reads_map_char_append :
    reads (front.map char ++ parts) text = true ↔
      ∃ rest, text = front ++ rest ∧ reads parts rest = true := by
  induction front generalizing text with
  | nil => simp
  | cons c front ih =>
      cases text with
      | nil => simp [reads, char]
      | cons d text =>
          have hstep : reads ((c :: front).map char ++ parts) (d :: text) =
              (admits false [(c, c)] d && reads (front.map char ++ parts) text) := rfl
          rw [hstep, Bool.and_eq_true, admits_char, ih]
          constructor
          · rintro ⟨rfl, rest, rfl, hrest⟩
            exact ⟨rest, rfl, hrest⟩
          · rintro ⟨rest, heq, hrest⟩
            obtain ⟨rfl, rfl⟩ := List.cons.inj heq
            exact ⟨rfl, rest, rfl, hrest⟩

theorem anySuffix_eq_true_iff {test : List Char → Bool} :
    anySuffix test text = true ↔ ∃ rest, rest <:+ text ∧ test rest = true := by
  induction text with
  | nil => simp [anySuffix]
  | cons c text ih =>
      rw [anySuffix, Bool.or_eq_true, ih]
      constructor
      · rintro (h | ⟨rest, hrest, h⟩)
        · exact ⟨_, List.suffix_refl _, h⟩
        · exact ⟨rest, hrest.trans (List.suffix_cons c text), h⟩
      · rintro ⟨rest, hrest, h⟩
        rcases List.suffix_cons_iff.1 hrest with rfl | hrest
        · exact .inl h
        · exact .inr ⟨rest, hrest, h⟩

theorem reads_anyText_cons :
    reads (.anyText :: parts) text = true ↔ ∃ rest, rest <:+ text ∧ reads parts rest = true :=
  anySuffix_eq_true_iff

theorem reads_nil : reads [] text = true ↔ text = [] := List.isEmpty_iff

theorem reads_map_char : reads (front.map char) text = true ↔ text = front := by
  have happend : reads (front.map char ++ []) text = true ↔
      ∃ rest, text = front ++ rest ∧ reads [] rest = true := reads_map_char_append
  rw [List.append_nil] at happend
  rw [happend]
  simp [reads_nil]

/-- A glob without marks fits itself. -/
theorem fits_plain_iff (h : ∀ c ∈ front, IsPlain c) : fits front text = true ↔ text = front := by
  rw [fits_eq_reads, parse_plain h, reads_map_char]

/-- Two stars behind plain characters stand for any text. -/
theorem fits_append_stars_iff (h : ∀ c ∈ front, IsPlain c) :
    fits (front ++ ['*', '*']) text = true ↔ front <+: text := by
  have hstars : parse ['*', '*'] = [.anyText, .anyText] := rfl
  have hany : ∀ rest, reads [.anyText, .anyText] rest = true := fun rest =>
    reads_anyText_cons.2 ⟨[], List.nil_suffix, reads_anyText_cons.2 ⟨[], List.suffix_refl _, rfl⟩⟩
  rw [fits_eq_reads, parse_append h, hstars, reads_map_char_append]
  constructor
  · rintro ⟨rest, rfl, -⟩
    exact List.prefix_append front rest
  · rintro ⟨rest, rfl⟩
    exact ⟨rest, rfl, hany rest⟩

/-- Two stars in front of plain characters stand for any text. -/
theorem fits_stars_append_iff (h : ∀ c ∈ rest, IsPlain c) :
    fits ('*' :: '*' :: rest) text = true ↔ rest <:+ text := by
  have hparse : parse ('*' :: '*' :: rest) = .anyText :: .anyText :: parse rest := rfl
  rw [fits_eq_reads, hparse, parse_plain h, reads_anyText_cons]
  simp only [reads_anyText_cons, reads_map_char]
  constructor
  · rintro ⟨more, hmore, _, hrest, rfl⟩
    exact hrest.trans hmore
  · intro hrest
    exact ⟨rest, hrest, rest, List.suffix_refl _, rfl⟩

end EnvAudit.Glob
