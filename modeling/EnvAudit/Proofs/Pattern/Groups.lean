import EnvAudit.Proofs.Pattern.Advance
import EnvAudit.Proofs.Pattern.Within

/-!
# Groups and places

A run changes what a group has read only if the pattern holds the group.  Where a run can end depends
on the place where it begins and on nothing else, if the pattern never asks what a group has read.
-/

namespace EnvAudit.Pattern

variable {p a b : Pattern} {r r' s : Reading} {index : Nat}

/-! ## What a run leaves as it was -/

/-- Whether the group is somewhere in the pattern. -/
def hasGroup (index : Nat) : Pattern → Bool
  | empty | one _ | many _ _ _ _ | edge _ | again _ _ => false
  | seq a b | alt a b | ifGroup _ a b => a.hasGroup index || b.hasGroup index
  | group other body => other == index || body.hasGroup index
  | loop body _ _ _ | ahead _ body | behind _ _ body | atomic body => body.hasGroup index

/-- No end that is listed for a run has changed what the group read last. -/
def KeepsGroup (index : Nat) (ends : Reading → List Reading) : Prop :=
  ∀ r, ∀ r' ∈ ends r, r'.capture? index = r.capture? index

theorem KeepsGroup.flatMap {first second : Reading → List Reading}
    (hfirst : KeepsGroup index first) (hsecond : KeepsGroup index second) :
    KeepsGroup index fun r => (first r).flatMap second := by
  intro r r' hmem
  obtain ⟨mid, hmid, hend⟩ := List.mem_flatMap.1 hmem
  exact (hsecond mid r' hend).trans (hfirst r mid hmid)

theorem KeepsGroup.endsRepeated {body : Reading → List Reading} (hbody : KeepsGroup index body)
    (greed : Greed) (most : Option Nat) (least : Nat) :
    KeepsGroup index (endsRepeated body greed most least) := by
  intro r
  have hkeeps : Keeps (fun s => s.capture? index = r.capture? index) body :=
    fun s hs s' hmem => (hbody s s' hmem).trans hs
  exact hkeeps.endsRepeated greed most least r rfl

/-- A run leaves a group alone that the pattern does not hold. -/
theorem keepsGroup_ends (h : p.hasGroup index = false) : KeepsGroup index p.ends := by
  induction p with
  | empty => exact fun r r' hmem => List.mem_singleton.1 hmem ▸ rfl
  | one k =>
      intro r r' hmem
      obtain ⟨-, front, -, rest, -, rfl⟩ := (reads_one k r r').1 hmem
      rfl
  | seq a b iha ihb =>
      rw [hasGroup, Bool.or_eq_false_iff] at h
      exact (iha h.1).flatMap (ihb h.2)
  | alt a b iha ihb =>
      rw [hasGroup, Bool.or_eq_false_iff] at h
      intro r r' hmem
      rcases List.mem_append.1 hmem with hmem | hmem
      · exact iha h.1 r r' hmem
      · exact ihb h.2 r r' hmem
  | group other body ih =>
      rw [hasGroup, Bool.or_eq_false_iff] at h
      intro r r' hmem
      obtain ⟨mid, hmid, rfl⟩ := List.mem_map.1 hmem
      rw [← ih h.2 r mid hmid, Reading.capture?, Reading.close]
      exact List.find?_cons_of_neg (by simpa using h.1)
  | many k least most greed =>
      intro r
      have hstep : Steps k.admits fun s => s.capture? index = r.capture? index :=
        fun _ _ _ _ _ _ h => h
      exact keeps_endsChar hstep least most greed r rfl
  | loop body least most greed ih =>
      rw [hasGroup] at h
      exact KeepsGroup.endsRepeated (fun r => ih h r) greed most least
  | edge place => exact fun r r' hmem => (mem_ends_edge.1 hmem).2 ▸ rfl
  | ahead wanted body ih =>
      rw [hasGroup] at h
      intro r r' hmem
      rcases eq_or_exists_of_mem_ends_ahead hmem with rfl | ⟨mid, hmid, rfl⟩
      · rfl
      · exact ih h r mid hmid
  | behind wanted width body ih =>
      rw [hasGroup] at h
      intro r r' hmem
      rcases eq_or_exists_of_mem_ends_behind hmem with rfl | ⟨back, -, mid, hmid, rfl⟩
      · rfl
      · exact ih h { r with cursor := back } mid hmid
  | atomic body ih =>
      rw [hasGroup] at h
      exact fun r r' hmem => ih h r r' (List.mem_of_mem_take hmem)
  | again other rule =>
      intro r r' hmem
      obtain ⟨capture, -, hagain⟩ := mem_ends_again.1 hmem
      rw [Reading.again?, Option.map_eq_some_iff] at hagain
      obtain ⟨cursor, -, rfl⟩ := hagain
      rfl
  | ifGroup other yes no ihyes ihno =>
      rw [hasGroup, Bool.or_eq_false_iff] at h
      intro r r' hmem
      rcases mem_ends_of_ifGroup hmem with hmem | hmem
      · exact ihyes h.1 r r' hmem
      · exact ihno h.2 r r' hmem

/-! ## What the place decides -/

/-- Whether the pattern asks what a group has read. -/
def asksGroups : Pattern → Bool
  | empty | one _ | many _ _ _ _ | edge _ => false
  | seq a b | alt a b => a.asksGroups || b.asksGroups
  | group _ body | loop body _ _ _ | ahead _ body | behind _ _ body | atomic body => body.asksGroups
  | again _ _ | ifGroup _ _ _ => true

/-- The places where runs have come to. -/
def places (runs : List Reading) : List Cursor := runs.map (·.cursor)

/-- From one place, all runs can end at the same places. -/
def ByPlace (ends : Reading → List Reading) : Prop :=
  ∀ r s, r.cursor = s.cursor → places (ends r) = places (ends s)

theorem ByPlace.places_flatMap {f : Reading → List Reading} (hf : ByPlace f)
    {runs runs' : List Reading} (h : places runs = places runs') :
    places (runs.flatMap f) = places (runs'.flatMap f) := by
  have hplaces : ∀ runs : List Reading, places (runs.flatMap f) =
      (places runs).flatMap fun c => places (f ⟨c, []⟩) := by
    intro runs
    rw [places, List.map_flatMap, places, List.flatMap_map]
    exact List.flatMap_congr fun r _ => hf r ⟨r.cursor, []⟩ rfl
  rw [hplaces, hplaces, h]

theorem ByPlace.flatMap {first second : Reading → List Reading} (hfirst : ByPlace first)
    (hsecond : ByPlace second) : ByPlace fun r => (first r).flatMap second :=
  fun r s h => hsecond.places_flatMap (hfirst r s h)

theorem places_append (runs runs' : List Reading) :
    places (runs ++ runs') = places runs ++ places runs' := List.map_append

theorem places_cons (r : Reading) (runs : List Reading) :
    places (r :: runs) = r.cursor :: places runs := rfl

theorem places_take (count : Nat) (runs : List Reading) :
    places (runs.take count) = (places runs).take count := List.map_take.symm ▸ rfl

theorem places_head? {runs runs' : List Reading} (h : places runs = places runs') :
    runs.head?.map (·.cursor) = runs'.head?.map (·.cursor) := by
  rw [← List.head?_map, ← List.head?_map]
  exact congrArg List.head? h

/-- Looks that both find something, or both nothing, leave runs at the same places. -/
theorem places_look {r s : Reading} {wanted : Bool} {found found' : Option Reading}
    (hplace : r.cursor = s.cursor) (h : found.map (·.cursor) = found'.map (·.cursor)) :
    places (look wanted r found) = places (look wanted s found') := by
  cases found with
  | none =>
      cases found' with
      | none =>
          cases wanted with
          | true => rfl
          | false => exact congrArg (fun c => [c]) hplace
      | some mid' => cases h
  | some mid =>
      cases found' with
      | none => cases h
      | some mid' =>
          cases wanted with
          | true => exact congrArg (fun c => [c]) hplace
          | false => rfl

theorem ByPlace.endsMore {body : Reading → List Reading} (hbody : ByPlace body) (greed : Greed)
    (budget : List Char) (most last : Option Nat) :
    ByPlace (endsMore body greed budget most last) := by
  induction budget generalizing most last with
  | nil => exact fun r s h => congrArg (fun c => [c]) h
  | cons _ budget ih =>
      rintro ⟨cursor, captures⟩ ⟨_, captures'⟩ rfl
      have hbodies := hbody ⟨cursor, captures⟩ ⟨cursor, captures'⟩ rfl
      have hnext := (ih (most.map (· - 1)) (some cursor.index)).places_flatMap hbodies
      cases greed with
      | greedy =>
          simp only [Pattern.endsMore, places_append]
          split
          · rw [hnext]
            rfl
          · rfl
      | lazy =>
          simp only [Pattern.endsMore, places_cons]
          split
          · rw [hnext]
          · rfl
      | possessive =>
          simp only [Pattern.endsMore]
          split
          · have hhead := places_head? hbodies
            cases hr : (body ⟨cursor, captures⟩).head? with
            | none =>
                rw [hr, Option.map_none, eq_comm, Option.map_eq_none_iff] at hhead
                rw [hhead]
                rfl
            | some mid =>
                rw [hr, Option.map_some, eq_comm, Option.map_eq_some_iff] at hhead
                obtain ⟨mid', hs, hmid⟩ := hhead
                rw [hs]
                exact ih _ _ mid mid' hmid.symm
          · rfl

theorem ByPlace.endsRepeated {body : Reading → List Reading} (hbody : ByPlace body) (greed : Greed)
    (most : Option Nat) (least : Nat) : ByPlace (endsRepeated body greed most least) := by
  induction least generalizing most with
  | zero =>
      intro r s h
      have hmore := hbody.endsMore greed (' ' :: r.cursor.after) most none r s h
      rw [Pattern.endsRepeated, hmore, h]
      rfl
  | succ least ih =>
      intro r s h
      have hstep := hbody r s h
      cases greed with
      | greedy | lazy => exact (ih _).places_flatMap hstep
      | possessive =>
          refine (ih _).places_flatMap ?_
          rw [places_take, places_take, hstep]

theorem byPlace_endsChar (k : CharClass) (least : Nat) (most : Option Nat) (greed : Greed) :
    ByPlace (endsChar k least most greed) := by
  intro r s h
  rw [endsChar, endsChar, h]
  split
  · rfl
  · simp only [places, List.map_map, Function.comp_def]

/-- Where a run can end depends on its place only, if the pattern does not ask about groups. -/
theorem byPlace_ends (h : p.asksGroups = false) : ByPlace p.ends := by
  induction p with
  | empty => exact fun r s heq => congrArg (fun c => [c]) heq
  | one k =>
      rintro ⟨⟨before, after, index⟩, captures⟩ ⟨cursor, captures'⟩ rfl
      cases after with
      | nil => rfl
      | cons c after =>
          simp only [ends]
          split <;> rfl
  | seq a b iha ihb =>
      rw [asksGroups, Bool.or_eq_false_iff] at h
      exact (iha h.1).flatMap (ihb h.2)
  | alt a b iha ihb =>
      rw [asksGroups, Bool.or_eq_false_iff] at h
      intro r s heq
      rw [ends, ends, places_append, places_append, iha h.1 r s heq, ihb h.2 r s heq]
  | group index body ih =>
      rw [asksGroups] at h
      intro r s heq
      simp only [ends, places, List.map_map, Function.comp_def, Reading.close]
      exact ih h r s heq
  | many k least most greed => exact byPlace_endsChar k least most greed
  | loop body least most greed ih =>
      rw [asksGroups] at h
      exact ByPlace.endsRepeated (fun r s heq => ih h r s heq) greed most least
  | edge place =>
      intro r s heq
      rw [ends, ends, heq]
      split
      · exact congrArg (fun c => [c]) heq
      · rfl
  | ahead wanted body ih =>
      rw [asksGroups] at h
      intro r s heq
      rw [ends_ahead, ends_ahead]
      exact places_look heq (places_head? (ih h r s heq))
  | behind wanted width body ih =>
      rw [asksGroups] at h
      intro r s heq
      have hhead : (((r.cursor.back? width).bind fun cursor =>
            (body.ends { r with cursor }).head?).map (·.cursor)) =
          ((s.cursor.back? width).bind fun cursor =>
            (body.ends { s with cursor }).head?).map (·.cursor) := by
        rw [heq]
        cases s.cursor.back? width with
        | none => rfl
        | some back => exact places_head? (ih h _ _ rfl)
      rw [ends_behind, ends_behind]
      exact places_look heq hhead
  | atomic body ih =>
      rw [asksGroups] at h
      intro r s heq
      rw [ends, ends, places_take, places_take, ih h r s heq]
  | again index rule => cases h
  | ifGroup index yes no => cases h

end EnvAudit.Pattern
