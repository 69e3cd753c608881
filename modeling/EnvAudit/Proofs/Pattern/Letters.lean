import EnvAudit.Proofs.Pattern.Marks
import EnvAudit.Proofs.Pattern.Reads
import EnvAudit.Proofs.Text.Case
import Mathlib.Data.List.Forall2

/-!
# Texts in either case

A text that is read in either case stands for the texts that agree with it letter by letter.  Two small
letters are never variants of one character, so what such a text holds can be told from its letters.
-/

namespace EnvAudit

namespace Text

set_option maxRecDepth 4000 in
/-- The only run that begins in ASCII is that of its capitals. -/
theorem eq_or_le_of_mem_lowerRuns :
    ∀ run ∈ lowerRuns, run = ⟨0x41, 0x5a, 1, 32⟩ ∨ 0x80 ≤ run.first := by
  decide

/-- No two small letters of ASCII share an upper-case form. -/
theorem eq_of_mem_sharedUpper :
    ∀ peers ∈ sharedUpper, ∀ a ∈ peers, ∀ b ∈ peers, a < 0x80 → b < 0x80 → a = b := by
  decide

/-- An ASCII character that is no capital. -/
def isSmall (c : Char) : Bool := 0 < c.toNat && c.toNat < 0x80 && !c.isUpper

theorem asciiVariants_small :
    ∀ code < 0x80, ((asciiVariants (Char.ofNat code)).filter isSmall).all fun a =>
      ((asciiVariants (Char.ofNat code)).filter isSmall).all (· == a) := by
  decide

theorem eq_of_mem_lowerPeers {code a b : Nat} (ha : a ∈ lowerPeers code) (hb : b ∈ lowerPeers code)
    (hlowa : a < 0x80) (hlowb : b < 0x80) : a = b := by
  rw [lowerPeers] at ha hb
  cases hpeers : sharedUpper.find? (·.contains code) with
  | none =>
      rw [hpeers] at ha hb
      exact (List.mem_singleton.1 ha).trans (List.mem_singleton.1 hb).symm
  | some peers =>
      rw [hpeers] at ha hb
      exact eq_of_mem_sharedUpper peers (List.mem_of_find?_eq_some hpeers) a ha b hb hlowa hlowb

/-- Above ASCII, a small variant is one of the small letters that share an upper-case form. -/
theorem mem_lowerPeers_of_mem_caseVariants {c d : Char} (hascii : 0x80 ≤ c.toNat)
    (h : d ∈ caseVariants c) (hsmall : isSmall d = true) :
    d.toNat ∈ lowerPeers (lowerChar c).toNat := by
  simp only [isSmall, Bool.and_eq_true, decide_eq_true_eq, Bool.not_eq_true'] at hsmall
  obtain ⟨⟨hpos, hlow⟩, hupper⟩ := hsmall
  rw [caseVariants, if_neg (Nat.not_lt.2 hascii)] at h
  obtain ⟨peer, hpeer, hmem⟩ := List.mem_flatMap.1 h
  obtain ⟨code, hcode, rfl⟩ := List.mem_map.1 hmem
  rw [toNat_ofNat_of_pos hpos] at hlow ⊢
  rcases List.mem_cons.1 hcode with rfl | hcode
  · exact hpeer
  · obtain ⟨run, hrun, hsource⟩ := List.mem_filterMap.1 hcode
    obtain ⟨hfirst, hlast, -⟩ := image?_eq_some (preimage?_eq_some hsource)
    rcases eq_or_le_of_mem_lowerRuns run hrun with rfl | hle
    · have hcapital : ∀ code < 0x5b, 0x41 ≤ code → (Char.ofNat code).isUpper = true := by decide
      rw [hcapital code (Nat.lt_succ_of_le hlast) hfirst] at hupper
      cases hupper
    · exact absurd (hle.trans hfirst) (Nat.not_le.2 hlow)

/-- A character has at most one small variant. -/
theorem eq_of_mem_caseVariants_of_mem {a b c : Char} (ha : a ∈ caseVariants c) (hb : b ∈ caseVariants c)
    (hsmalla : isSmall a = true) (hsmallb : isSmall b = true) : a = b := by
  rcases Nat.lt_or_ge c.toNat 0x80 with hascii | hascii
  · rw [caseVariants, if_pos hascii, ← Char.ofNat_toNat c] at ha hb
    have hall := List.all_eq_true.1 (asciiVariants_small c.toNat hascii) b
      (List.mem_filter.2 ⟨hb, hsmallb⟩)
    exact eq_of_beq (List.all_eq_true.1 hall a (List.mem_filter.2 ⟨ha, hsmalla⟩))
  · have hpeera := mem_lowerPeers_of_mem_caseVariants hascii ha hsmalla
    have hpeerb := mem_lowerPeers_of_mem_caseVariants hascii hb hsmallb
    simp only [isSmall, Bool.and_eq_true, decide_eq_true_eq] at hsmalla hsmallb
    exact Char.toNat_inj.1 (eq_of_mem_lowerPeers hpeera hpeerb hsmalla.1.2 hsmallb.1.2)

end Text

/-! ## What is read -/

open Pattern

namespace CharClass

theorem mem_caseVariants_of_admits {c d : Char} (h : (ofChar c).anyCase.admits d = true) :
    c ∈ Text.caseVariants d := by
  obtain ⟨e, he, hvariant⟩ : ∃ e ∈ [c], e ∈ CaseRule.unicode.variants d := mem_variants_of_admits h
  rwa [List.mem_singleton.1 he] at hvariant

end CharClass

/-- The texts agree letter by letter when case is ignored. -/
abbrev SameLetters (text read : List Char) : Prop :=
  List.Forall₂ (fun c d => (CharClass.ofChar c).anyCase.admits d = true) text read

namespace SameLetters

variable {text read : List Char} {c d : Char}

theorem exists_of_mem (h : SameLetters text read) (hd : d ∈ read) :
    ∃ c ∈ text, c ∈ Text.caseVariants d := by
  induction h with
  | nil => cases hd
  | cons hhead _ ih =>
      rcases List.mem_cons.1 hd with rfl | hd
      · exact ⟨_, List.mem_cons_self, CharClass.mem_caseVariants_of_admits hhead⟩
      · obtain ⟨c, hc, hvariant⟩ := ih hd
        exact ⟨c, List.mem_cons_of_mem _ hc, hvariant⟩

theorem exists_of_mem_text (h : SameLetters text read) (hc : c ∈ text) :
    ∃ d ∈ read, c ∈ Text.caseVariants d := by
  induction h with
  | nil => cases hc
  | cons hhead _ ih =>
      rcases List.mem_cons.1 hc with rfl | hc
      · exact ⟨_, List.mem_cons_self, CharClass.mem_caseVariants_of_admits hhead⟩
      · obtain ⟨d, hd, hvariant⟩ := ih hc
        exact ⟨d, List.mem_cons_of_mem _ hd, hvariant⟩

end SameLetters

namespace Pattern

variable {S : Cursor → Prop} {a b p : Pattern} {A B : Set (List Char)} {r r' : Reading}
  {content front rest : List Char}

theorem reads_text_ignoringCase (s : String) :
    ReadsAnywhere (text s).ignoringCase {read | SameLetters s.toList read} := by
  rw [text]
  induction s.toList with
  | nil =>
      have hset : {read | SameLetters [] read} = {[]} := by
        ext read
        exact List.forall₂_nil_left_iff
      rw [hset]
      exact reads_empty
  | cons c rest ih =>
      have hset : {read | SameLetters (c :: rest) read} =
          Set.image2 (· ++ ·) {front | ∃ d, (CharClass.ofChar c).anyCase.admits d = true ∧ front = [d]}
            {read | SameLetters rest read} := by
        ext read
        simp only [Set.mem_ofPred_eq, Set.mem_image2, List.forall₂_cons_left_iff]
        constructor
        · rintro ⟨d, more, hd, hmore, rfl⟩
          exact ⟨[d], ⟨d, hd, rfl⟩, more, hmore, rfl⟩
        · rintro ⟨_, ⟨d, hd, rfl⟩, more, hmore, rfl⟩
          exact ⟨d, more, hd, hmore, rfl⟩
      rw [hset]
      exact (reads_one (CharClass.ofChar c).anyCase).seq ih

theorem reads_anyText_ignoringCase (words : List String) :
    ReadsAnywhere (anyText words).ignoringCase
      {read | ∃ word ∈ words, SameLetters word.toList read} := by
  induction words with
  | nil =>
      intro r r'
      simp [anyText, ignoringCase, ends]
  | cons word more ih =>
      have hset : {read | ∃ w ∈ word :: more, SameLetters w.toList read} =
          {read | SameLetters word.toList read} ∪ {read | ∃ w ∈ more, SameLetters w.toList read} := by
        ext read
        simp
      rw [hset]
      cases more with
      | nil =>
          have hempty : {read | ∃ w ∈ ([] : List String), SameLetters w.toList read} = ∅ := by
            ext read
            simp
          rw [hempty, Set.union_empty]
          exact reads_text_ignoringCase word
      | cons => exact (reads_text_ignoringCase word).alt ih

end Pattern

end EnvAudit
