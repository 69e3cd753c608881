import EnvAudit.Proofs.Pattern.First
import EnvAudit.Proofs.Text.Blank
import EnvAudit.Proofs.Text.Case

/-!
# Places at marks

A mark is a character that belongs to no word.  Patterns that end by reading marks end behind a mark,
whether they tell capitals from small letters or not.
-/

namespace EnvAudit

open Pattern

namespace CharClass

/-- A class that holds no word character. -/
def Separators (k : CharClass) : Prop := ∀ c, k.admits c = true → Text.isWord c = false

/-- The class with its letters read in either case. -/
def anyCase (k : CharClass) : CharClass := { k with caseRule := .unicode }

theorem mem_variants_of_admits {members : List Char} {rule : CaseRule} {c : Char}
    (h : ({ items := members.map fun d => .range d d, caseRule := rule } : CharClass).admits c =
      true) : ∃ d ∈ members, d ∈ rule.variants c := by
  simp only [admits, List.any_map, Bool.bne_false, List.any_eq_true, Function.comp_apply, itemAdmits,
    Bool.and_eq_true, decide_eq_true_eq] at h
  obtain ⟨d, hd, v, hv, hlow, hhigh⟩ := h
  exact ⟨d, hd, le_antisymm hlow hhigh ▸ hv⟩

/-- When case is ignored, a class of marks admits nothing but them. -/
theorem mem_of_admits_anyCase {members : List Char} {c : Char}
    (hmarks : ∀ d ∈ members, 0 < d.toNat ∧ d.toNat < 0x41)
    (h : ({ items := members.map fun d => .range d d, caseRule := .unicode } : CharClass).admits c =
      true) : c ∈ members := by
  obtain ⟨d, hd, hvariant⟩ := mem_variants_of_admits h
  obtain ⟨hpos, hlow⟩ := hmarks d hd
  exact Text.eq_of_mem_caseVariants hvariant hpos hlow ▸ hd

theorem separators_blank : Separators blank := by
  intro c hc
  rw [admits_blank] at hc
  exact Text.isWord_of_isBlank hc

theorem separators_anyCase_blank : Separators (anyCase blank) := by
  intro c hc
  have hlower : Text.isBlank (Text.lowerChar c) = true := by
    simpa [anyCase, blank, admits, itemAdmits, CharKind.admits, CaseRule.lower] using hc
  exact Text.isWord_of_isBlank (Text.isBlank_of_isBlank_lowerChar hlower)

theorem separators_ofString {members : String}
    (h : members.toList.all (fun c => !Text.isWord c) = true) : Separators (ofString members) := by
  intro c hc
  rw [admits_ofString, List.contains_iff_mem] at hc
  simpa using List.all_eq_true.1 h c hc

theorem separators_anyCase_ofString {members : String}
    (h : members.toList.all (fun c => !Text.isWord c && (0 < c.toNat && c.toNat < 0x41)) = true) :
    Separators (anyCase (ofString members)) := by
  simp only [List.all_eq_true, Bool.and_eq_true, Bool.not_eq_true', decide_eq_true_eq] at h
  exact fun c hc => (h c (mem_of_admits_anyCase (fun d hd => (h d hd).2) hc)).1

theorem separators_ofChar {d : Char} (h : Text.isWord d = false) : Separators (ofChar d) := by
  intro c hc
  rw [admits_ofChar, beq_iff_eq] at hc
  exact hc ▸ h

theorem separators_anyCase_ofChar {d : Char} (h : Text.isWord d = false) (hpos : 0 < d.toNat)
    (hlow : d.toNat < 0x41) : Separators (anyCase (ofChar d)) := by
  intro c hc
  have hmem : c ∈ [d] :=
    mem_of_admits_anyCase (List.forall_mem_singleton.2 ⟨hpos, hlow⟩) hc
  exact List.mem_singleton.1 hmem ▸ h

/-- Only a line end is left out when all other characters of a line are read. -/
theorem isWord_of_not_admits_notNewline {c : Char} (h : notNewline.admits c = false) :
    Text.isWord c = false := by
  rw [notNewline, admits_complement, admits_ofChar, Bool.not_eq_false', beq_iff_eq] at h
  exact h ▸ by decide

theorem eq_newline_of_not_admits_anyCase {c : Char} (h : (anyCase notNewline).admits c = false) :
    c = '\n' := by
  have hmember : (anyCase (ofChar '\n')).admits c = true := by
    have hcomplement := admits_complement (anyCase (ofChar '\n')) c
    rw [show (anyCase (ofChar '\n')).complement = anyCase notNewline from rfl, h] at hcomplement
    simpa using hcomplement.symm
  exact List.mem_singleton.1 (mem_of_admits_anyCase (by decide) hmember)

theorem isWord_of_not_admits_anyCase_notNewline {c : Char}
    (h : (anyCase notNewline).admits c = false) : Text.isWord c = false :=
  eq_newline_of_not_admits_anyCase h ▸ by decide

end CharClass

namespace Cursor

/-- No word character stands in front of the place. -/
def AfterMark (c : Cursor) : Prop := ∀ ch ∈ c.before.head?, Text.isWord ch = false

/-- No word character stands behind the place. -/
def BeforeMark (c : Cursor) : Prop := ∀ ch ∈ c.after.head?, Text.isWord ch = false

end Cursor

namespace Pattern

variable {a b p : Pattern} {k : CharClass} {r r' : Reading}

/-- Wherever the pattern can end, no word character stands in front. -/
def EndsAfterMark (p : Pattern) : Prop := ∀ r, ∀ r' ∈ p.ends r, r'.cursor.AfterMark

theorem afterMark_pass (front : List Char) {rest : List Char} {last : Char} (h : Text.isWord last = false) :
    (r.pass (front ++ [last]) rest).cursor.AfterMark := by
  intro ch hch
  have hlast : ch = last := by simpa [Reading.pass] using hch.symm
  exact hlast ▸ h

theorem endsAfterMark_one (hk : k.Separators) : EndsAfterMark (one k) := by
  intro r r' hmem
  obtain ⟨-, _, ⟨c, hc, rfl⟩, rest, -, rfl⟩ := (reads_one k r r').1 hmem
  exact afterMark_pass [] (hk c hc)

theorem endsAfterMark_plus (hk : k.Separators) : EndsAfterMark (plus k) := by
  intro r r' hmem
  obtain ⟨-, read, ⟨hne, hall⟩, rest, -, rfl⟩ := (reads_plus k r r').1 hmem
  obtain ⟨front, last, rfl⟩ := (List.eq_nil_or_concat' read).resolve_left hne
  exact afterMark_pass front (hk last (hall last (by simp)))

theorem endsAfterMark_text {s : String} (hne : s.toList ≠ [])
    (hlast : Text.isWord (s.toList.getLast hne) = false) : EndsAfterMark (text s) := by
  intro r r' hmem
  obtain ⟨-, _, rfl, rest, -, rfl⟩ := (reads_text s r r').1 hmem
  rw [← List.dropLast_append_getLast hne]
  exact afterMark_pass _ hlast

theorem EndsAfterMark.seq (hb : EndsAfterMark b) : EndsAfterMark (a ++ b) := by
  intro r r' hmem
  obtain ⟨mid, -, hend⟩ := List.mem_flatMap.1 hmem
  exact hb mid r' hend

theorem EndsAfterMark.empty (ha : EndsAfterMark a) : EndsAfterMark (a ++ empty) := by
  intro r r' hmem
  obtain ⟨mid, hmid, hend⟩ := List.mem_flatMap.1 hmem
  exact List.mem_singleton.1 hend ▸ ha r mid hmid

/-- Further separators change nothing. -/
theorem EndsAfterMark.star (ha : EndsAfterMark a) (hk : k.Separators) :
    EndsAfterMark (a ++ star k) := by
  intro r r' hmem
  obtain ⟨mid, hmid, hend⟩ := List.mem_flatMap.1 hmem
  obtain ⟨-, read, hall, rest, hafter, rfl⟩ := (reads_star k mid r').1 hend
  rcases List.eq_nil_or_concat' read with rfl | ⟨front, last, rfl⟩
  · exact ha r mid hmid
  · exact afterMark_pass front (hk last (hall last (by simp)))

theorem EndsAfterMark.alt (ha : EndsAfterMark a) (hb : EndsAfterMark b) :
    EndsAfterMark (a ||| b) := by
  intro r r' hmem
  rcases List.mem_append.1 hmem with hmem | hmem
  · exact ha r r' hmem
  · exact hb r r' hmem

end Pattern

end EnvAudit
