import EnvAudit.Pattern.Width
import EnvAudit.Proofs.Pattern.First
import EnvAudit.Proofs.Pattern.Keeps

/-!
# Patterns never go back

No run of a pattern ends in front of the place where it began.  A pattern that must read a character
ends behind it, and so its matches are the first ends from their places.
-/

namespace EnvAudit

theorem Cursor.index_of_readExactly? {test : Char → Bool} {count : Nat} {c c' : Cursor}
    (h : c.readExactly? test count = some c') : c'.index = c.index + count := by
  induction count generalizing c with
  | zero =>
      cases h
      rfl
  | succ count ih =>
      obtain ⟨before, after, index⟩ := c
      cases after with
      | nil => cases h
      | cons ch after =>
          rw [Cursor.readExactly?] at h
          split at h
          · have hnext := ih h
            simp only at hnext ⊢
            omega
          · cases h

theorem Cursor.index_le_of_mem_nearest {test : Char → Bool} {before after : List Char} {index : Nat}
    {most : Option Nat} {c : Cursor} (h : c ∈ Cursor.nearest test before index after most) :
    index ≤ c.index := by
  have hstep : Pattern.Steps test fun r => index ≤ r.cursor.index :=
    fun _ _ _ _ _ _ hle => Nat.le_succ_of_le hle
  have hplace : index ≤ (⟨c, []⟩ : Reading).cursor.index := hstep.nearest (le_refl index) h
  exact hplace

theorem Reading.index_le_of_again_go {rule : CaseRule} {wanted : List Char} {c c' : Cursor}
    (h : again?.go rule wanted c = some c') : c.index ≤ c'.index := by
  induction wanted generalizing c with
  | nil => exact (Option.some.inj h ▸ le_rfl)
  | cons want wanted ih =>
      obtain ⟨before, after, index⟩ := c
      cases after with
      | nil => cases h
      | cons ch after =>
          rw [again?.go] at h
          split at h
          · exact (Nat.le_succ index).trans (ih h)
          · cases h

namespace Pattern

variable {p : Pattern} {r r' : Reading} {k : CharClass}

/-- All ends that are listed for a run lie at least `least` characters ahead. -/
def Advances (least : Nat) (ends : Reading → List Reading) : Prop :=
  ∀ r, ∀ r' ∈ ends r, r.cursor.index + least ≤ r'.cursor.index

theorem Advances.flatMap {first second : Reading → List Reading} {a b : Nat}
    (hfirst : Advances a first) (hsecond : Advances b second) :
    Advances (a + b) fun r => (first r).flatMap second := by
  intro r r' hmem
  obtain ⟨mid, hmid, hmem⟩ := List.mem_flatMap.1 hmem
  have hle := hfirst r mid hmid
  have hle' := hsecond mid r' hmem
  omega

theorem Advances.mono {ends : Reading → List Reading} {a b : Nat} (h : Advances b ends) (hle : a ≤ b) :
    Advances a ends := fun r r' hmem => (Nat.add_le_add_left hle _).trans (h r r' hmem)

theorem advances_endsMore {body : Reading → List Reading} (hbody : Advances 0 body) (greed : Greed)
    (budget : List Char) (most last : Option Nat) :
    Advances 0 (endsMore body greed budget most last) := by
  intro r
  have hkeeps : Keeps (fun s => r.cursor.index ≤ s.cursor.index) body :=
    fun s hle s' hmem => hle.trans (hbody s s' hmem)
  exact hkeeps.endsMore greed budget most last r le_rfl

theorem advances_endsRepeated {body : Reading → List Reading} {width : Nat}
    (hbody : Advances width body) (greed : Greed) (most : Option Nat) (least : Nat) :
    Advances (width * least) (endsRepeated body greed most least) := by
  induction least generalizing most with
  | zero =>
      exact fun r => advances_endsMore (hbody.mono (Nat.zero_le width)) greed _ most none r
  | succ least ih =>
      have hsum : width * (least + 1) = width + width * least := by
        rw [Nat.mul_succ, Nat.add_comm]
      rw [hsum]
      intro r r' hmem
      cases greed with
      | greedy | lazy => exact hbody.flatMap (ih _) r r' hmem
      | possessive =>
          obtain ⟨mid, hmid, hmem⟩ := List.mem_flatMap.1 hmem
          exact hbody.flatMap (ih _) r r'
            (List.mem_flatMap.2 ⟨mid, List.mem_of_mem_take hmid, hmem⟩)

theorem advances_endsChar (k : CharClass) (least : Nat) (most : Option Nat) (greed : Greed) :
    Advances least (endsChar k least most greed) := by
  intro r r' hmem
  obtain ⟨before, after, index, hread, cursor, hnearest, rfl⟩ := exists_of_mem_endsChar hmem
  have hindex : index = r.cursor.index + least := Cursor.index_of_readExactly? hread
  exact hindex ▸ Cursor.index_le_of_mem_nearest hnearest

/-- The width of a pattern when nothing is known of the groups that it refers to. -/
def ownWidth (p : Pattern) : Width := p.width fun _ => ⟨0, none⟩

/-- A run reads no fewer characters than the least width. -/
theorem advances_ends (p : Pattern) : Advances p.ownWidth.least p.ends := by
  induction p with
  | empty => exact fun r r' hmem => List.mem_singleton.1 hmem ▸ le_rfl
  | one k =>
      intro r r' hmem
      obtain ⟨-, _, ⟨c, -, rfl⟩, rest, -, rfl⟩ := (reads_one k r r').1 hmem
      exact le_rfl
  | seq a b iha ihb => exact iha.flatMap ihb
  | alt a b iha ihb =>
      intro r r' hmem
      rcases List.mem_append.1 hmem with hmem | hmem
      · exact iha.mono (Nat.min_le_left _ _) r r' hmem
      · exact ihb.mono (Nat.min_le_right _ _) r r' hmem
  | group index body ih =>
      intro r r' hmem
      obtain ⟨mid, hmid, rfl⟩ := List.mem_map.1 hmem
      exact ih r mid hmid
  | many k least most greed =>
      exact (advances_endsChar k least most greed).mono (Nat.one_mul least).le
  | loop body least most greed ih =>
      exact advances_endsRepeated (fun r r' hmem => ih r r' hmem) greed most least
  | edge place => exact fun r r' hmem => (mem_ends_edge.1 hmem).2 ▸ le_rfl
  | ahead wanted body | behind wanted width body =>
      intro r r' hmem
      rcases eq_or_exists_of_mem_look hmem with rfl | ⟨mid, -, rfl⟩
      · exact le_rfl
      · exact le_rfl
  | atomic body ih => exact fun r r' hmem => ih r r' (List.mem_of_mem_take hmem)
  | again index rule =>
      intro r r' hmem
      obtain ⟨capture, -, hagain⟩ := mem_ends_again.1 hmem
      rw [Reading.again?, Option.map_eq_some_iff] at hagain
      obtain ⟨cursor, hgo, rfl⟩ := hagain
      exact Reading.index_le_of_again_go hgo
  | ifGroup index yes no ihyes ihno =>
      intro r r' hmem
      rcases mem_ends_of_ifGroup hmem with hmem | hmem
      · exact ihyes.mono (Nat.min_le_left _ _) r r' hmem
      · exact ihno.mono (Nat.min_le_right _ _) r r' hmem

/-- A match of a pattern that must read a character is the first end from its place. -/
theorem first_of_mem_matchesAt (hp : 0 < p.ownWidth.least) {c : Cursor} {m : Match}
    (h : m ∈ p.matchesAt c) : m.start = c ∧ First p ⟨c, []⟩ m.reading := by
  rw [matchesAt] at h
  split at h
  · cases h
  · rename_i first hfirst
    have hm := hfirst
    rw [matchAt?_eq, Option.map_eq_some_iff] at hm
    obtain ⟨r, hr, rfl⟩ := hm
    have hmoved := advances_ends p ⟨c, []⟩ r (List.mem_of_head? hr)
    rw [if_neg (show ¬ r.cursor.index = c.index by simp only at hmoved; omega)] at h
    rw [List.mem_singleton.1 h]
    exact ⟨rfl, hr⟩

theorem first_of_mem_matchesFrom (hp : 0 < p.ownWidth.least) {before after : List Char}
    {index free : Nat} {m : Match} (h : m ∈ p.matchesFrom before index free after) :
    First p ⟨m.start, []⟩ m.reading := by
  have hat : ∀ {c}, m ∈ p.matchesAt c → First p ⟨m.start, []⟩ m.reading := by
    intro c hmem
    obtain ⟨hstart, hfirst⟩ := first_of_mem_matchesAt hp hmem
    rwa [hstart]
  induction after generalizing before index free with
  | nil =>
      rw [matchesFrom] at h
      split at h
      · cases h
      · exact hat h
  | cons c after ih =>
      rw [matchesFrom] at h
      split at h
      · exact ih h
      · split at h
        · exact ih h
        · rename_i first more hmatches
          rcases List.mem_append.1 h with h | h
          · exact hat (hmatches ▸ h)
          · exact ih h

/-- All matches of a pattern that must read a character are first ends. -/
theorem first_of_mem_allMatches (hp : 0 < p.ownWidth.least) {text : List Char} {m : Match}
    (h : m ∈ p.allMatches text) : First p ⟨m.start, []⟩ m.reading :=
  first_of_mem_matchesFrom hp h

end Pattern

end EnvAudit
