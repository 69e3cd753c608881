import EnvAudit.Proofs.Text.Word
import EnvAudit.Text.Blank
import Mathlib.Data.List.TakeWhile

/-!
# Blank characters

No visible ASCII character is blank and no blank character belongs to a word.  A text that begins and
ends with characters that are not blank has nothing to trim.
-/

namespace EnvAudit.Text

/-- The code points of the blank characters. -/
def blankCodes : List Nat := blankRanges.flatMap fun (low, high) => List.range' low (high + 1 - low)

theorem exists_mem_of_inRanges {code : Nat} {ranges : List (Nat × Nat)}
    (h : inRanges code ranges = true) : ∃ range ∈ ranges, range.1 ≤ code ∧ code ≤ range.2 := by
  induction ranges with
  | nil => cases h
  | cons range ranges ih =>
      rw [inRanges] at h
      split at h
      · cases h
      · rename_i hlow
        split at h
        · rename_i hhigh
          exact ⟨range, List.mem_cons_self, Nat.not_lt.1 hlow, hhigh⟩
        · obtain ⟨other, hmem, hother⟩ := ih h
          exact ⟨other, List.mem_cons_of_mem range hmem, hother⟩

theorem mem_blankCodes {c : Char} (h : isBlank c = true) : c.toNat ∈ blankCodes := by
  obtain ⟨range, hrange, hlow, hhigh⟩ := exists_mem_of_inRanges h
  refine List.mem_flatMap.2 ⟨range, hrange, List.mem_range'_1.2 ⟨hlow, ?_⟩⟩
  omega

theorem isWord_of_mem_blankCodes : ∀ code ∈ blankCodes, isWord (Char.ofNat code) = false := by
  decide +kernel

/-- No blank character belongs to a word. -/
theorem isWord_of_isBlank {c : Char} (h : isBlank c = true) : isWord c = false := by
  rw [← Char.ofNat_toNat c]
  exact isWord_of_mem_blankCodes _ (mem_blankCodes h)

theorem isBlank_eq_false {c : Char} (hlow : 0x20 < c.toNat) (hhigh : c.toNat < 0x80) :
    isBlank c = false := by
  simp only [isBlank, blankRanges, inRanges]
  rw [if_neg (by omega), if_neg (by omega), if_neg (by omega), if_neg (by omega), if_pos (by omega)]

theorem isBlank_of_isAlpha {c : Char} (h : c.isAlpha = true) : isBlank c = false := by
  rw [isAlpha_eq, Bool.or_eq_true, isUpper_iff_toNat, isLower_iff_toNat] at h
  have hA : 'A'.toNat = 65 := rfl
  have hz : 'z'.toNat = 122 := rfl
  have hZ : 'Z'.toNat = 90 := rfl
  have ha : 'a'.toNat = 97 := rfl
  exact isBlank_eq_false (by omega) (by omega)

theorem trimStart_cons {c : Char} (h : isBlank c = false) (rest : List Char) :
    trimStart (c :: rest) = c :: rest := by
  rw [trimStart, List.dropWhile_cons, h]
  rfl

theorem trimEnd_concat {c : Char} (h : isBlank c = false) (front : List Char) :
    trimEnd (front ++ [c]) = front ++ [c] := by
  rw [trimEnd, List.reverse_append, List.reverse_singleton, List.singleton_append, trimStart_cons h,
    List.reverse_cons, List.reverse_reverse]

theorem trimStart_append {before text : List Char} (hbefore : ∀ c ∈ before, isBlank c = true)
    (htext : ∀ c ∈ text.head?, isBlank c = false) : trimStart (before ++ text) = text := by
  rw [trimStart, List.dropWhile_append_of_pos hbefore]
  cases text with
  | nil => rfl
  | cons first more => exact trimStart_cons (htext first rfl) more

theorem trimEnd_append {text after : List Char} (hafter : ∀ c ∈ after, isBlank c = true)
    (htext : ∀ c ∈ text.getLast?, isBlank c = false) : trimEnd (text ++ after) = text := by
  rw [trimEnd, List.reverse_append,
    trimStart_append (by simpa using hafter) (by simpa using htext), List.reverse_reverse]

theorem trim_eq_nil {text : List Char} (h : ∀ c ∈ text, isBlank c = true) : trim text = [] := by
  have hstart : trimStart text = [] := List.dropWhile_eq_nil_iff.2 h
  rw [trim, hstart]
  rfl

/-- Trimming takes the blanks away from around a text that holds none. -/
theorem trim_padded {before text after : List Char} (hbefore : ∀ c ∈ before, isBlank c = true)
    (hne : text ≠ []) (htext : ∀ c ∈ text, isBlank c = false) (hafter : ∀ c ∈ after, isBlank c = true) :
    trim (before ++ (text ++ after)) = text := by
  have hhead : ∀ c ∈ (text ++ after).head?, isBlank c = false := by
    obtain ⟨first, more, rfl⟩ := List.exists_cons_of_ne_nil hne
    rintro _ ⟨⟩
    exact htext first List.mem_cons_self
  rw [trim, trimStart_append hbefore hhead,
    trimEnd_append hafter fun c hc => htext c (List.mem_of_getLast? hc)]

/-- Trimming drops blank characters at the ends and nothing else. -/
theorem exists_eq_trim (text : List Char) :
    ∃ front back, text = front ++ (trim text ++ back) ∧ (∀ c ∈ front, isBlank c = true) ∧
      ∀ c ∈ back, isBlank c = true := by
  have hstart : text.takeWhile isBlank ++ trimStart text = text := List.takeWhile_append_dropWhile
  have hend : trim text ++ ((trimStart text).reverse.takeWhile isBlank).reverse = trimStart text := by
    rw [trim, trimEnd, ← List.reverse_append, trimStart.eq_1 (trimStart text).reverse,
      List.takeWhile_append_dropWhile, List.reverse_reverse]
  refine ⟨text.takeWhile isBlank, ((trimStart text).reverse.takeWhile isBlank).reverse, ?_,
    fun c hc => List.mem_takeWhile_imp hc,
    fun c hc => List.mem_takeWhile_imp (List.mem_reverse.1 hc)⟩
  rw [hend, hstart]

/-- A trimmed text does not begin with a blank. -/
theorem isBlank_head_trim {text : List Char} : ∀ c ∈ (trim text).head?, isBlank c = false := by
  intro c hc
  have hend : trim text <+: trimStart text := by
    rw [trim, trimEnd, ← List.reverse_suffix, List.reverse_reverse]
    exact List.dropWhile_suffix _
  obtain ⟨rest, hrest⟩ := hend
  have hstart : (trimStart text).head? = some c := by
    rw [← hrest, List.head?_append, Option.mem_def.1 hc]
    rfl
  have hnot := List.head?_dropWhile_not isBlank text
  rw [← trimStart, hstart] at hnot
  simpa using hnot

end EnvAudit.Text
