import EnvAudit.Proofs.Pattern.Keeps
import Mathlib.Data.List.Infix

/-!
# Matches lie in the text

All places that a run of a pattern comes to are places of the one text that it runs on.  What a group
reads is therefore a piece of that text.
-/

namespace EnvAudit

namespace Cursor

/-- The place stands in the text, and its index says where. -/
structure Of (text : List Char) (c : Cursor) : Prop where
  chars : c.before.reverse ++ c.after = text
  index : c.index = c.before.length

variable {text : List Char} {c c' : Cursor}

theorem of_start (text : List Char) : (start text).Of text := ⟨rfl, rfl⟩

/-- Two places of a text with one index are the same. -/
theorem Of.eq_of_index (h : c.Of text) (h' : c'.Of text) (hindex : c.index = c'.index) : c = c' := by
  obtain ⟨before, after, index⟩ := c
  obtain ⟨before', after', index'⟩ := c'
  have hlength : before.reverse.length = before'.reverse.length := by
    rw [List.length_reverse, List.length_reverse, ← h.index, ← h'.index]
    exact hindex
  obtain ⟨hbefore, hafter⟩ := List.append_inj (h.chars.trans h'.chars.symm) hlength
  rw [Cursor.mk.injEq]
  exact ⟨List.reverse_inj.1 hbefore, hafter, hindex⟩

theorem Of.step {before after : List Char} {ch : Char} {index : Nat}
    (h : (⟨before, ch :: after, index⟩ : Cursor).Of text) :
    (⟨ch :: before, after, index + 1⟩ : Cursor).Of text := by
  obtain ⟨hchars, hindex⟩ := h
  exact ⟨by simpa using hchars, by simpa using hindex⟩

theorem Of.back? {count : Nat} (h : c.Of text) (hback : c.back? count = some c') :
    c'.Of text := by
  induction count generalizing c with
  | zero =>
      cases hback
      exact h
  | succ count ih =>
      obtain ⟨before, after, index⟩ := c
      cases before with
      | nil => cases hback
      | cons ch before =>
          obtain ⟨hchars, hindex⟩ := h
          have hlast : index - 1 = before.length := Nat.sub_eq_of_eq_add hindex
          exact ih ⟨by simpa using hchars, hlast⟩ hback

theorem Of.upTo_isInfix (h : c.Of text) (stop : Cursor) : c.upTo stop <:+: text := by
  rw [upTo, ← h.chars]
  exact (List.take_prefix _ _).isInfix.trans (List.suffix_append _ _).isInfix

/-- The characters between two places of a text lead from the first to the second. -/
theorem Of.reverse_before_append_upTo (h : c.Of text)
    (h' : c'.Of text) (hle : c.index ≤ c'.index) :
    c.before.reverse ++ c.upTo c' = c'.before.reverse := by
  have hlength : c.before.reverse.length ≤ c'.index := by
    rw [List.length_reverse, ← h.index]
    exact hle
  calc
    c.before.reverse ++ c.upTo c' = text.take c'.index := by
      rw [← h.chars, List.take_append, List.take_of_length_le hlength, List.length_reverse, ← h.index,
        Cursor.upTo]
    _ = c'.before.reverse := by
      rw [← h'.chars, h'.index, ← List.length_reverse, List.take_left]

end Cursor

namespace Reading

/-- A run stands in the text, and so does all that its groups have read. -/
structure Within (text : List Char) (r : Reading) : Prop where
  cursor : r.cursor.Of text
  captures : ∀ capture ∈ r.captures, capture.start.Of text ∧ capture.stop.Of text

variable {text : List Char} {r r' : Reading}

theorem Within.move (h : r.Within text) {cursor : Cursor} (hcursor : cursor.Of text) :
    ({ r with cursor } : Reading).Within text :=
  ⟨hcursor, h.captures⟩

theorem Within.close (h : r.Within text) {start : Cursor} (hstart : start.Of text)
    (group : Nat) : (r.close group start).Within text where
  cursor := h.cursor
  captures capture hmem := by
    rcases List.mem_cons.1 hmem with rfl | hmem
    · exact ⟨hstart, h.cursor⟩
    · exact h.captures capture hmem

theorem Within.again_go {rule : CaseRule} {wanted : List Char} {c c' : Cursor}
    (h : c.Of text) (hgo : again?.go rule wanted c = some c') : c'.Of text := by
  induction wanted generalizing c with
  | nil =>
      cases hgo
      exact h
  | cons want wanted ih =>
      obtain ⟨before, after, index⟩ := c
      cases after with
      | nil => cases hgo
      | cons ch after =>
          rw [again?.go] at hgo
          split at hgo
          · exact ih h.step hgo
          · cases hgo

theorem Within.again? {rule : CaseRule} {wanted : List Char} (h : r.Within text)
    (hagain : r.again? rule wanted = some r') : r'.Within text := by
  rw [Reading.again?, Option.map_eq_some_iff] at hagain
  obtain ⟨cursor, hgo, rfl⟩ := hagain
  exact h.move (Within.again_go h.cursor hgo)

/-- What a group read is a piece of the text. -/
theorem Within.capture_infix (h : r.Within text) {group : Nat} {capture : Capture}
    (hcapture : r.capture? group = some capture) : capture.text <:+: text :=
  (h.captures capture (List.mem_of_find?_eq_some hcapture)).1.upTo_isInfix capture.stop

/-- What a group read stands between the places where it began and ended. -/
theorem Within.eq_append (h : r.Within text) {group : Nat} {capture : Capture}
    (hcapture : r.capture? group = some capture) (hle : capture.start.index ≤ capture.stop.index) :
    text = capture.start.before.reverse ++ (capture.text ++ capture.stop.after) := by
  obtain ⟨hstart, hstop⟩ := h.captures capture (List.mem_of_find?_eq_some hcapture)
  rw [← List.append_assoc, Capture.text, hstart.reverse_before_append_upTo hstop hle, hstop.chars]

end Reading

namespace Pattern

variable {text : List Char} {r r' : Reading}

/-- All ends that are listed for a run in the text lie in the text. -/
def StaysWithin (text : List Char) (ends : Reading → List Reading) : Prop :=
  ∀ r, r.Within text → ∀ r' ∈ ends r, r'.Within text

theorem steps_within {test : Char → Bool} : Steps test (Reading.Within text) :=
  fun _ _ _ _ _ _ h => h.move h.cursor.step

/-- A pattern that runs in a text stays in it. -/
theorem staysWithin_ends (p : Pattern) : StaysWithin text p.ends := by
  induction p with
  | empty => exact fun r h r' hmem => List.mem_singleton.1 hmem ▸ h
  | one k => exact keeps_one steps_within
  | seq a b iha ihb => exact Keeps.flatMap iha ihb
  | alt a b iha ihb =>
      intro r h r' hmem
      rcases List.mem_append.1 hmem with hmem | hmem
      · exact iha r h r' hmem
      · exact ihb r h r' hmem
  | group index body ih =>
      intro r h r' hmem
      obtain ⟨mid, hmid, rfl⟩ := List.mem_map.1 hmem
      exact (ih r h mid hmid).close h.cursor index
  | many k least most greed => exact keeps_endsChar steps_within least most greed
  | loop body least most greed ih => exact Keeps.endsRepeated ih greed most least
  | edge place => exact fun r h r' hmem => (mem_ends_edge.1 hmem).2 ▸ h
  | ahead wanted body ih =>
      intro r h r' hmem
      rcases eq_or_exists_of_mem_ends_ahead hmem with rfl | ⟨mid, hmid, rfl⟩
      · exact h
      · exact (ih r h mid hmid).move h.cursor
  | behind wanted width body ih =>
      intro r h r' hmem
      rcases eq_or_exists_of_mem_ends_behind hmem with rfl | ⟨back, hback, mid, hmid, rfl⟩
      · exact h
      · exact (ih _ (h.move (h.cursor.back? hback)) mid hmid).move h.cursor
  | atomic body ih => exact fun r h r' hmem => ih r h r' (List.mem_of_mem_take hmem)
  | again index rule =>
      intro r h r' hmem
      obtain ⟨capture, -, hagain⟩ := mem_ends_again.1 hmem
      exact h.again? hagain
  | ifGroup index yes no ihyes ihno =>
      intro r h r' hmem
      rcases mem_ends_of_ifGroup hmem with hmem | hmem
      · exact ihyes r h r' hmem
      · exact ihno r h r' hmem

/-! ## Matches -/

/-- A match lies in the text. -/
structure Match.Within (text : List Char) (m : Match) : Prop where
  start : m.start.Of text
  reading : m.reading.Within text

theorem Match.Within.group?_infix {m : Match} (h : m.Within text) {group : Nat}
    {read : List Char} (hread : m.group? group = some read) : read <:+: text := by
  obtain ⟨capture, hcapture, rfl⟩ := Option.map_eq_some_iff.1 hread
  exact h.reading.capture_infix hcapture

theorem within_matchesAt (p : Pattern) {c : Cursor} (h : c.Of text) :
    ∀ m ∈ p.matchesAt c, m.Within text := by
  have hends : ∀ r ∈ p.ends ⟨c, []⟩, (⟨c, r⟩ : Match).Within text := fun r hr =>
    ⟨h, staysWithin_ends p ⟨c, []⟩ ⟨h, by simp⟩ r hr⟩
  have hfirst : ∀ m, p.matchAt? c = some m → m.Within text := by
    intro m hm
    rw [matchAt?_eq, Option.map_eq_some_iff] at hm
    obtain ⟨r, hr, rfl⟩ := hm
    exact hends r (List.mem_of_head? hr)
  have hproper : ∀ m, p.properMatchAt? c = some m → m.Within text := by
    intro m hm
    rw [properMatchAt?, run_eq_findSome?, Option.map_eq_some_iff] at hm
    obtain ⟨r, hr, rfl⟩ := hm
    obtain ⟨found, hfound, hask⟩ := List.exists_of_findSome?_eq_some hr
    split at hask
    · cases hask
    · cases hask
      exact hends r hfound
  intro m hmem
  rw [matchesAt] at hmem
  split at hmem
  · cases hmem
  · rename_i first hmatch
    split at hmem
    · rcases List.mem_cons.1 hmem with rfl | hmem
      · exact hfirst m hmatch
      · exact hproper m (Option.mem_toList.1 hmem)
    · exact List.mem_singleton.1 hmem ▸ hfirst first hmatch

theorem within_matchesFrom (p : Pattern) {before after : List Char} {index free : Nat}
    (h : (⟨before, after, index⟩ : Cursor).Of text) :
    ∀ m ∈ p.matchesFrom before index free after, m.Within text := by
  induction after generalizing before index free with
  | nil =>
      intro m hmem
      rw [matchesFrom] at hmem
      split at hmem
      · cases hmem
      · exact within_matchesAt p h m hmem
  | cons c after ih =>
      intro m hmem
      rw [matchesFrom] at hmem
      split at hmem
      · exact ih h.step m hmem
      · have hat := within_matchesAt p h
        split at hmem
        · exact ih h.step m hmem
        · rename_i first more hmatches
          rw [hmatches] at hat
          rcases List.mem_append.1 hmem with hmem | hmem
          · exact hat m hmem
          · exact ih h.step m hmem

/-- Every match that is found in a text lies in it. -/
theorem within_allMatches (p : Pattern) (text : List Char) :
    ∀ m ∈ p.allMatches text, m.Within text :=
  within_matchesFrom p (Cursor.of_start text)

end Pattern

end EnvAudit
