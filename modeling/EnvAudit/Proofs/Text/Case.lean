import EnvAudit.Proofs.Text.Blank
import EnvAudit.Text.Case

/-!
# Letter case leaves separators alone

The case tables hold letters only.  No character but itself counts as a digit or a mark of ASCII when
case is ignored, and what becomes blank in lower case was blank before.
-/

namespace EnvAudit.Text

set_option maxRecDepth 4000 in
theorem le_of_mem_lowerRuns :
    ∀ run ∈ lowerRuns, 0x41 ≤ run.first ∧ 0x41 ≤ run.first + run.shift := by
  decide

theorem le_of_mem_sharedUpper : ∀ peers ∈ sharedUpper, ∀ code ∈ peers, 0x41 ≤ code := by
  decide

/-- No run maps to a blank character. -/
theorem notMem_blankCodes_of_mem_lowerRuns :
    ∀ run ∈ lowerRuns, ∀ code ∈ blankCodes,
      ¬ ((run.first : Int) + run.shift ≤ (code : Int) ∧ (code : Int) ≤ run.last + run.shift) := by
  decide +kernel

theorem asciiVariants_low :
    ∀ code < 0x80, (asciiVariants (Char.ofNat code)).all fun d =>
      0x41 ≤ d.toNat || d == Char.ofNat code := by
  decide

theorem mem_asciiVariants_low {code : Nat} {d : Char} (hcode : code < 0x80)
    (h : d ∈ asciiVariants (Char.ofNat code)) (hlow : d.toNat < 0x41) : d = Char.ofNat code := by
  have hd := List.all_eq_true.1 (asciiVariants_low code hcode) d h
  rw [Bool.or_eq_true, decide_eq_true_eq, beq_iff_eq] at hd
  exact hd.resolve_left (Nat.not_le.2 hlow)

theorem image?_eq_some {run : CaseRun} {code image : Nat} (h : run.image? code = some image) :
    run.first ≤ code ∧ code ≤ run.last ∧ image = (code + run.shift).toNat := by
  rw [CaseRun.image?] at h
  split at h
  · rename_i hrun
    exact ⟨hrun.1, hrun.2.1, (Option.some.inj h).symm⟩
  · cases h

theorem preimage?_eq_some {run : CaseRun} {code source : Nat}
    (h : run.preimage? code = some source) : run.image? source = some code := by
  rw [CaseRun.preimage?] at h
  split at h
  · rename_i himage
    cases h
    exact himage
  · cases h

theorem toNat_ofNat_of_pos {code : Nat} (h : 0 < (Char.ofNat code).toNat) :
    (Char.ofNat code).toNat = code := by
  by_cases hvalid : code.isValidChar
  · rw [Char.ofNat, dif_pos hvalid]
    rfl
  · rw [Char.ofNat, dif_neg hvalid] at h
    exact absurd h (by decide)

/-- Lower case is the character itself or the image under a run. -/
theorem lowerChar_eq (c : Char) (hascii : 0x80 ≤ c.toNat) :
    lowerChar c = c ∨ ∃ run ∈ lowerRuns, ∃ code, run.image? c.toNat = some code ∧
      lowerChar c = Char.ofNat code := by
  rw [lowerChar, if_neg (by omega)]
  cases hfound : lowerRuns.findSome? (·.image? c.toNat) with
  | none => exact .inl rfl
  | some code =>
      obtain ⟨run, hrun, himage⟩ := List.exists_of_findSome?_eq_some hfound
      exact .inr ⟨run, hrun, code, himage, rfl⟩

theorem le_toNat_lowerChar (c : Char) (hascii : 0x80 ≤ c.toNat)
    (hpos : 0 < (lowerChar c).toNat) : 0x41 ≤ (lowerChar c).toNat := by
  rcases lowerChar_eq c hascii with hsame | ⟨run, hrun, code, himage, hlower⟩
  · rw [hsame]
    omega
  · obtain ⟨hfirst, -, rfl⟩ := image?_eq_some himage
    obtain ⟨-, hshift⟩ := le_of_mem_lowerRuns run hrun
    rw [hlower] at hpos ⊢
    rw [toNat_ofNat_of_pos hpos]
    omega

theorem le_of_mem_lowerPeers {code low : Nat} (h : low ∈ lowerPeers code) :
    low = code ∨ 0x41 ≤ low := by
  rw [lowerPeers] at h
  cases hpeers : sharedUpper.find? (·.contains code) with
  | none =>
      rw [hpeers] at h
      exact .inl (List.mem_singleton.1 h)
  | some peers =>
      rw [hpeers] at h
      exact .inr (le_of_mem_sharedUpper peers (List.mem_of_find?_eq_some hpeers) low h)

/-- Only itself counts as a digit or mark of ASCII when case is ignored. -/
theorem eq_of_mem_caseVariants {c d : Char} (h : d ∈ caseVariants c) (hpos : 0 < d.toNat)
    (hlow : d.toNat < 0x41) : d = c := by
  rw [caseVariants] at h
  split at h
  · rename_i hascii
    rw [← Char.ofNat_toNat c] at h ⊢
    exact mem_asciiVariants_low hascii h hlow
  · rename_i hascii
    obtain ⟨peer, hpeer, hmem⟩ := List.mem_flatMap.1 h
    obtain ⟨code, hcode, rfl⟩ := List.mem_map.1 hmem
    have htoNat := toNat_ofNat_of_pos hpos
    have hletter : 0x41 ≤ code := by
      rcases List.mem_cons.1 hcode with rfl | hcode
      · rcases le_of_mem_lowerPeers hpeer with rfl | hle
        · exact le_toNat_lowerChar c (Nat.not_lt.1 hascii) (by omega)
        · exact hle
      · obtain ⟨run, hrun, hsource⟩ := List.mem_filterMap.1 hcode
        have hfirst := (image?_eq_some (preimage?_eq_some hsource)).1
        have hrunFirst := (le_of_mem_lowerRuns run hrun).1
        omega
    omega

theorem isBlank_of_isBlank_toLower :
    ∀ code < 0x80, isBlank (Char.ofNat code).toLower = true → isBlank (Char.ofNat code) = true := by
  decide

/-- What is blank in lower case was blank before. -/
theorem isBlank_of_isBlank_lowerChar {c : Char} (h : isBlank (lowerChar c) = true) :
    isBlank c = true := by
  by_cases hascii : c.toNat < 0x80
  · rw [lowerChar, if_pos hascii] at h
    rw [← Char.ofNat_toNat c] at h ⊢
    exact isBlank_of_isBlank_toLower c.toNat hascii h
  · rcases lowerChar_eq c (Nat.not_lt.1 hascii) with hsame | ⟨run, hrun, code, himage, hlower⟩
    · rwa [hsame] at h
    · obtain ⟨hfirst, hlast, rfl⟩ := image?_eq_some himage
      have hblank := mem_blankCodes h
      have hpos : 0 < (lowerChar c).toNat := Nat.pos_of_ne_zero fun hzero =>
        absurd (hzero ▸ hblank) (by decide)
      have htoNat : (lowerChar c).toNat = (c.toNat + run.shift).toNat := by
        rw [hlower] at hpos ⊢
        exact toNat_ofNat_of_pos hpos
      exact absurd ⟨by omega, by omega⟩ (notMem_blankCodes_of_mem_lowerRuns run hrun _ hblank)

end EnvAudit.Text
