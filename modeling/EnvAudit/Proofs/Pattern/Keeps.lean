import EnvAudit.Proofs.Pattern.Ends

/-!
# What all runs keep

A property of runs that each step of a pattern keeps holds wherever the pattern can end.  Repetitions
keep what their body keeps, and a repeated character what reading one of them keeps.
-/

namespace EnvAudit.Pattern

variable {P : Reading → Prop} {body first second : Reading → List Reading}

/-- A property that holds for a run holds at all ends that are listed for it. -/
def Keeps (P : Reading → Prop) (ends : Reading → List Reading) : Prop :=
  ∀ r, P r → ∀ r' ∈ ends r, P r'

theorem Keeps.flatMap (hfirst : Keeps P first) (hsecond : Keeps P second) :
    Keeps P fun r => (first r).flatMap second := by
  intro r h r' hmem
  obtain ⟨mid, hmid, hend⟩ := List.mem_flatMap.1 hmem
  exact hsecond mid (hfirst r h mid hmid) r' hend

theorem Keeps.endsMore (hbody : Keeps P body) (greed : Greed) (budget : List Char)
    (most last : Option Nat) : Keeps P (endsMore body greed budget most last) := by
  induction budget generalizing most last with
  | nil => exact fun r h r' hmem => List.mem_singleton.1 hmem ▸ h
  | cons _ budget ih =>
      intro r h r' hmem
      have hnext := hbody.flatMap (ih (most.map (· - 1)) (some r.cursor.index)) r h
      cases greed with
      | greedy =>
          simp only [Pattern.endsMore, List.mem_append, List.mem_singleton] at hmem
          rcases hmem with hmem | rfl
          · split at hmem
            · exact hnext r' hmem
            · cases hmem
          · exact h
      | lazy =>
          simp only [Pattern.endsMore, List.mem_cons] at hmem
          rcases hmem with rfl | hmem
          · exact h
          · split at hmem
            · exact hnext r' hmem
            · cases hmem
      | possessive =>
          simp only [Pattern.endsMore] at hmem
          split at hmem
          · split at hmem
            · rename_i mid hmid
              exact hnext r' (List.mem_flatMap.2 ⟨mid, List.mem_of_head? hmid, hmem⟩)
            · exact List.mem_singleton.1 hmem ▸ h
          · exact List.mem_singleton.1 hmem ▸ h

theorem Keeps.endsRepeated (hbody : Keeps P body) (greed : Greed) (most : Option Nat) (least : Nat) :
    Keeps P (endsRepeated body greed most least) := by
  induction least generalizing most with
  | zero => exact fun r h => hbody.endsMore greed _ most none r h
  | succ least ih =>
      intro r h r' hmem
      cases greed with
      | greedy | lazy => exact hbody.flatMap (ih _) r h r' hmem
      | possessive =>
          obtain ⟨mid, hmid, hend⟩ := List.mem_flatMap.1 hmem
          exact hbody.flatMap (ih _) r h r'
            (List.mem_flatMap.2 ⟨mid, List.mem_of_mem_take hmid, hend⟩)

/-! ## Reading characters -/

/-- The property survives the reading of one character that passes the test. -/
def Steps (test : Char → Bool) (P : Reading → Prop) : Prop :=
  ∀ before ch after index captures, test ch = true → P ⟨⟨before, ch :: after, index⟩, captures⟩ →
    P ⟨⟨ch :: before, after, index + 1⟩, captures⟩

variable {test : Char → Bool} {captures : List Capture}

theorem Steps.readExactly? (hstep : Steps test P) {count : Nat} {c c' : Cursor}
    (h : P ⟨c, captures⟩) (hread : c.readExactly? test count = some c') : P ⟨c', captures⟩ := by
  induction count generalizing c with
  | zero =>
      cases hread
      exact h
  | succ count ih =>
      obtain ⟨before, after, index⟩ := c
      cases after with
      | nil => cases hread
      | cons ch after =>
          rw [Cursor.readExactly?] at hread
          split at hread
          · rename_i htest
            exact ih (hstep before ch after index captures htest h) hread
          · cases hread

theorem Steps.nearest (hstep : Steps test P) {before after : List Char} {index : Nat}
    {most : Option Nat} {c : Cursor} (h : P ⟨⟨before, after, index⟩, captures⟩)
    (hmem : c ∈ Cursor.nearest test before index after most) : P ⟨c, captures⟩ := by
  induction after generalizing before index most with
  | nil => exact List.mem_singleton.1 hmem ▸ h
  | cons ch after ih =>
      rw [Cursor.nearest] at hmem
      rcases List.mem_cons.1 hmem with rfl | hmem
      · exact h
      · split at hmem
        · rename_i hgo
          rw [Bool.and_eq_true] at hgo
          exact ih (hstep before ch after index captures hgo.2 h) hmem
        · cases hmem

variable {k : CharClass}

theorem keeps_one (hstep : Steps k.admits P) : Keeps P (one k).ends := by
  intro r h r' hmem
  obtain ⟨⟨before, after, index⟩, captures⟩ := r
  cases after with
  | nil => cases hmem
  | cons ch after =>
      simp only [ends] at hmem
      split at hmem
      · rename_i hadmits
        exact List.mem_singleton.1 hmem ▸ hstep before ch after index captures hadmits h
      · cases hmem

theorem keeps_endsChar (hstep : Steps k.admits P) (least : Nat) (most : Option Nat) (greed : Greed) :
    Keeps P (endsChar k least most greed) := by
  intro r h r' hmem
  obtain ⟨before, after, index, hread, cursor, hnearest, rfl⟩ := exists_of_mem_endsChar hmem
  exact hstep.nearest (hstep.readExactly? h hread) hnearest

/-! ## Characters that are not read -/

/-- Whether no run of the pattern reads the character. -/
def avoids (c : Char) : Pattern → Bool
  | empty | edge _ | ahead _ _ | behind _ _ _ => true
  | one k | many k _ _ _ => !k.admits c
  | seq a b | alt a b | ifGroup _ a b => a.avoids c && b.avoids c
  | group _ body | loop body _ _ _ | atomic body => body.avoids c
  | again _ _ => false

theorem steps_of_not_admits {c : Char} {count : Nat} (h : (!k.admits c) = true) :
    Steps k.admits fun r => r.cursor.before.count c = count := by
  intro before ch after index captures hadmits hcount
  have hne : ch ≠ c := by
    rintro rfl
    simp [hadmits] at h
  exact (List.count_cons_of_ne hne).trans hcount

/-- A run of the pattern leaves no more of the character behind. -/
theorem keeps_of_avoids {p : Pattern} {c : Char} {count : Nat} (h : p.avoids c = true) :
    Keeps (fun r => r.cursor.before.count c = count) p.ends := by
  induction p with
  | empty => exact fun r hcount r' hmem => List.mem_singleton.1 hmem ▸ hcount
  | one k => exact keeps_one (steps_of_not_admits h)
  | seq a b iha ihb =>
      rw [avoids, Bool.and_eq_true] at h
      exact (iha h.1).flatMap (ihb h.2)
  | alt a b iha ihb =>
      rw [avoids, Bool.and_eq_true] at h
      intro r hcount r' hmem
      rcases List.mem_append.1 hmem with hmem | hmem
      · exact iha h.1 r hcount r' hmem
      · exact ihb h.2 r hcount r' hmem
  | group index body ih =>
      rw [avoids] at h
      intro r hcount r' hmem
      obtain ⟨mid, hmid, rfl⟩ := List.mem_map.1 hmem
      exact ih h r hcount mid hmid
  | many k least most greed => exact keeps_endsChar (steps_of_not_admits h) least most greed
  | loop body least most greed ih =>
      rw [avoids] at h
      exact Keeps.endsRepeated (ih h) greed most least
  | edge place => exact fun r hcount r' hmem => (mem_ends_edge.1 hmem).2 ▸ hcount
  | ahead wanted body | behind wanted width body =>
      intro r hcount r' hmem
      rcases eq_or_exists_of_mem_look hmem with rfl | ⟨mid, -, rfl⟩
      · exact hcount
      · exact hcount
  | atomic body ih =>
      rw [avoids] at h
      exact fun r hcount r' hmem => ih h r hcount r' (List.mem_of_mem_take hmem)
  | again index rule => cases h
  | ifGroup index yes no ihyes ihno =>
      rw [avoids, Bool.and_eq_true] at h
      intro r hcount r' hmem
      rcases mem_ends_of_ifGroup hmem with hmem | hmem
      · exact ihyes h.1 r hcount r' hmem
      · exact ihno h.2 r hcount r' hmem

end EnvAudit.Pattern
