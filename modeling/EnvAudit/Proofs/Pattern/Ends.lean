import EnvAudit.Pattern.Search
import Mathlib.Data.List.Basic

/-!
# The ways for a pattern to end

Running a pattern with a continuation asks the continuation at one end after the other.  The ends
form a list, in the order of preference, and a run is the first answer that the continuation gives
on this list.  Facts about patterns are therefore facts about membership in lists.
-/

namespace EnvAudit

theorem findSome?_flatMap {α β γ : Type} (l : List α) (f : α → List β) (ask : β → Option γ) :
    (l.flatMap f).findSome? ask = l.findSome? fun a => (f a).findSome? ask := by
  induction l with
  | nil => rfl
  | cons a l ih =>
      rw [List.flatMap_cons, List.findSome?_append, ih, List.findSome?_cons]
      cases (f a).findSome? ask <;> rfl

theorem findSome?_some {α : Type} (l : List α) : l.findSome? some = l.head? := by
  cases l <;> rfl

theorem head?_bind {α β : Type} (l : List α) (ask : α → Option β) :
    l.head?.bind ask = (l.take 1).findSome? ask := by
  cases l with
  | nil => rfl
  | cons a l => cases h : ask a <;> simp [h]

namespace Cursor

/-- The places after zero, one, … characters that pass the test, at most `most`, the nearest
first. -/
def nearest (test : Char → Bool) (before : List Char) (index : Nat) :
    (after : List Char) → (most : Option Nat) → List Cursor
  | [], _ => [⟨before, [], index⟩]
  | ch :: after, most =>
    ⟨before, ch :: after, index⟩ ::
      if most != some 0 && test ch then
        nearest test (ch :: before) (index + 1) after (most.map (· - 1))
      else []

theorem nearest?_eq_findSome? {α : Type} (test : Char → Bool) (ask : Cursor → Option α)
    (before : List Char) (index : Nat) (after : List Char) (most : Option Nat) :
    nearest? test ask before index after most =
      (nearest test before index after most).findSome? ask := by
  induction after generalizing before index most with
  | nil => simp [nearest?, nearest]
  | cons ch after ih =>
      rw [nearest?, nearest, List.findSome?_cons]
      cases ask ⟨before, ch :: after, index⟩ with
      | some answer => rfl
      | none =>
          simp only
          split
          · exact ih _ _ _
          · rfl

/-- The farthest places first are the nearest ones in reverse. -/
theorem stops_eq_nearest (test : Char → Bool) (before : List Char) (index : Nat)
    (after : List Char) (most : Option Nat) (nearer : List Cursor) :
    stops test before index after most nearer =
      (nearest test before index after most).reverse ++ nearer := by
  induction after generalizing before index most nearer with
  | nil => cases most <;> rfl
  | cons ch after ih =>
      rw [nearest]
      by_cases hmost : most = some 0
      · subst hmost
        rfl
      · have hstops : stops test before index (ch :: after) most nearer =
            if test ch then
              stops test (ch :: before) (index + 1) after (most.map (· - 1))
                (⟨before, ch :: after, index⟩ :: nearer)
            else ⟨before, ch :: after, index⟩ :: nearer := by
          rw [stops]
          exact hmost
        rw [hstops]
        by_cases htest : test ch = true
        · simp [htest, hmost, ih]
        · simp [htest]

end Cursor

namespace Pattern

/-- The ends of a repetition after the least count is reached. -/
def endsMore (body : Reading → List Reading) (greed : Greed) :
    (budget : List Char) → (most : Option Nat) → (last : Option Nat) → Reading → List Reading
  | [], _, _, r => [r]
  | _ :: budget, most, last, r =>
    let mayRepeat := most != some 0 && last != some r.cursor.index
    let next := endsMore body greed budget (most.map (· - 1)) (some r.cursor.index)
    match greed with
    | .greedy => (if mayRepeat then (body r).flatMap next else []) ++ [r]
    | .lazy => r :: if mayRepeat then (body r).flatMap next else []
    | .possessive =>
      if mayRepeat then
        match (body r).head? with
        | some r' => next r'
        | none => [r]
      else [r]

/-- The ends of a repetition. -/
def endsRepeated (body : Reading → List Reading) (greed : Greed) (most : Option Nat) :
    (least : Nat) → Reading → List Reading
  | 0, r => endsMore body greed (' ' :: r.cursor.after) most none r
  | least + 1, r =>
    let next := endsRepeated body greed (most.map (· - 1)) least
    match greed with
    | .possessive => ((body r).take 1).flatMap next
    | _ => (body r).flatMap next

/-- The ends of a repetition of one character. -/
def endsChar (k : CharClass) (least : Nat) (most : Option Nat) (greed : Greed) (r : Reading) :
    List Reading :=
  match r.cursor.readExactly? k.admits least with
  | none => []
  | some ⟨before, after, index⟩ =>
    let most := most.map (· - least)
    let cursors := match greed with
      | .greedy => (Cursor.nearest k.admits before index after most).reverse
      | .lazy => Cursor.nearest k.admits before index after most
      | .possessive => (Cursor.nearest k.admits before index after most).reverse.take 1
    cursors.map fun cursor => { r with cursor }

/-- The ways for a run of a pattern to end, the preferred ones first. -/
def ends : Pattern → Reading → List Reading
  | empty, r => [r]
  | one k, r =>
    match r.cursor with
    | ⟨_, [], _⟩ => []
    | ⟨before, c :: after, index⟩ =>
      if k.admits c then [{ r with cursor := ⟨c :: before, after, index + 1⟩ }] else []
  | seq a b, r => (a.ends r).flatMap b.ends
  | alt a b, r => a.ends r ++ b.ends r
  | group index body, r => (body.ends r).map fun r' => r'.close index r.cursor
  | many k least most greed, r => endsChar k least most greed r
  | loop body least most greed, r => endsRepeated (fun r => body.ends r) greed most least r
  | edge place, r => if r.cursor.isAt place then [r] else []
  | ahead wanted body, r =>
    match (body.ends r).head? with
    | some r' => if wanted then [{ r' with cursor := r.cursor }] else []
    | none => if wanted then [] else [r]
  | behind wanted width body, r =>
    match (r.cursor.back? width).bind fun cursor => (body.ends { r with cursor }).head? with
    | some r' => if wanted then [{ r' with cursor := r.cursor }] else []
    | none => if wanted then [] else [r]
  | atomic body, r => (body.ends r).take 1
  | again index rule, r =>
    match r.capture? index with
    | none => []
    | some capture => (r.again? rule capture.text).toList
  | ifGroup index yes no, r => if (r.capture? index).isSome then yes.ends r else no.ends r

/-! ## What the ends are -/

section Members

variable {r r' : Reading} {body yes no : Pattern} {wanted : Bool} {found : Option Reading}

theorem exists_of_mem_endsChar {k : CharClass} {least : Nat} {most : Option Nat} {greed : Greed}
    (h : r' ∈ endsChar k least most greed r) :
    ∃ before after index, r.cursor.readExactly? k.admits least = some ⟨before, after, index⟩ ∧
      ∃ cursor ∈ Cursor.nearest k.admits before index after (most.map (· - least)),
        r' = { r with cursor } := by
  rw [endsChar] at h
  split at h
  · cases h
  · rename_i before after index hread
    obtain ⟨cursor, hcursors, rfl⟩ := List.mem_map.1 h
    refine ⟨before, after, index, hread, cursor, ?_, rfl⟩
    cases greed with
    | greedy => exact List.mem_reverse.1 hcursors
    | lazy => exact hcursors
    | possessive => exact List.mem_reverse.1 (List.mem_of_mem_take hcursors)

theorem mem_ends_edge {place : Edge} :
    r' ∈ (edge place).ends r ↔ r.cursor.isAt place = true ∧ r' = r := by
  rw [ends]
  split <;> simp_all

/-- What a look from a place leaves of a run, which stays there. -/
def look (wanted : Bool) (r : Reading) : (found : Option Reading) → List Reading
  | some r' => if wanted then [{ r' with cursor := r.cursor }] else []
  | none => if wanted then [] else [r]

theorem ends_ahead (wanted : Bool) (body : Pattern) (r : Reading) :
    (ahead wanted body).ends r = look wanted r (body.ends r).head? := rfl

theorem ends_behind (wanted : Bool) (width : Nat) (body : Pattern) (r : Reading) :
    (behind wanted width body).ends r = look wanted r
      ((r.cursor.back? width).bind fun cursor => (body.ends { r with cursor }).head?) := rfl

theorem eq_or_exists_of_mem_look (h : r' ∈ look wanted r found) :
    r' = r ∨ ∃ mid, found = some mid ∧ r' = { mid with cursor := r.cursor } := by
  unfold look at h
  cases found with
  | none =>
      cases wanted with
      | true => cases h
      | false => exact .inl (List.mem_singleton.1 h)
  | some mid =>
      cases wanted with
      | true => exact .inr ⟨mid, rfl, List.mem_singleton.1 h⟩
      | false => cases h

theorem eq_or_exists_of_mem_ends_ahead (h : r' ∈ (ahead wanted body).ends r) :
    r' = r ∨ ∃ mid ∈ body.ends r, r' = { mid with cursor := r.cursor } := by
  rw [ends_ahead] at h
  refine (eq_or_exists_of_mem_look h).imp_right ?_
  rintro ⟨mid, hhead, heq⟩
  exact ⟨mid, List.mem_of_head? hhead, heq⟩

theorem eq_or_exists_of_mem_ends_behind {width : Nat} (h : r' ∈ (behind wanted width body).ends r) :
    r' = r ∨ ∃ back, r.cursor.back? width = some back ∧
      ∃ mid ∈ body.ends { r with cursor := back }, r' = { mid with cursor := r.cursor } := by
  rw [ends_behind] at h
  refine (eq_or_exists_of_mem_look h).imp_right ?_
  rintro ⟨mid, hfound, heq⟩
  obtain ⟨back, hback, hhead⟩ := Option.bind_eq_some_iff.1 hfound
  exact ⟨back, hback, mid, List.mem_of_head? hhead, heq⟩

theorem mem_ends_again {index : Nat} {rule : CaseRule} :
    r' ∈ (again index rule).ends r ↔
      ∃ capture, r.capture? index = some capture ∧ r.again? rule capture.text = some r' := by
  rw [ends]
  cases r.capture? index <;> simp

theorem mem_ends_of_ifGroup {index : Nat} (h : r' ∈ (ifGroup index yes no).ends r) :
    r' ∈ yes.ends r ∨ r' ∈ no.ends r := by
  rw [ends] at h
  split at h
  · exact .inl h
  · exact .inr h

end Members

/-! ## Runs -/

/-- A behaviour that asks its continuation at the listed ends, in this order. -/
def Asks (run : Behaviour) (ends : Reading → List Reading) : Prop :=
  ∀ r goOn, run r goOn = (ends r).findSome? goOn

theorem Asks.run_some {run : Behaviour} {ends : Reading → List Reading} (h : Asks run ends)
    (r : Reading) : run r some = (ends r).head? := by
  rw [h, findSome?_some]

theorem moreOf_eq {body : Behaviour} {bodyEnds : Reading → List Reading}
    (hbody : Asks body bodyEnds) (greed : Greed) (goOn : Reading → Option Reading)
    (budget : List Char) (most last : Option Nat) (r : Reading) :
    moreOf body greed goOn budget most last r =
      (endsMore bodyEnds greed budget most last r).findSome? goOn := by
  induction budget generalizing most last r with
  | nil => simp [moreOf, endsMore]
  | cons _ budget ih =>
      have hnext : body r (moreOf body greed goOn budget (most.map (· - 1))
          (some r.cursor.index)) =
          ((bodyEnds r).flatMap (endsMore bodyEnds greed budget (most.map (· - 1))
            (some r.cursor.index))).findSome? goOn := by
        rw [hbody, findSome?_flatMap]
        exact congrArg (fun ask => (bodyEnds r).findSome? ask) (funext fun r' => ih _ _ r')
      cases greed with
      | greedy =>
          simp only [moreOf, endsMore, List.findSome?_append, List.findSome?_singleton, hnext]
          split
          · cases List.findSome? goOn _ <;> rfl
          · rfl
      | lazy =>
          simp only [moreOf, endsMore, List.findSome?_cons, hnext]
          cases goOn r with
          | some done => rfl
          | none =>
              simp only
              split <;> rfl
      | possessive =>
          simp only [moreOf, endsMore, hbody.run_some]
          split
          · cases (bodyEnds r).head? with
            | some r' => exact ih _ _ r'
            | none => exact (List.findSome?_singleton).symm
          · exact (List.findSome?_singleton).symm

theorem repeated_eq {body : Behaviour} {bodyEnds : Reading → List Reading}
    (hbody : Asks body bodyEnds) (greed : Greed) (goOn : Reading → Option Reading)
    (most : Option Nat) (least : Nat) (r : Reading) :
    repeated body greed goOn most least r =
      (endsRepeated bodyEnds greed most least r).findSome? goOn := by
  induction least generalizing most r with
  | zero => exact moreOf_eq hbody greed goOn _ most none r
  | succ least ih =>
      have hnext : repeated body greed goOn (most.map (· - 1)) least =
          fun r' => (endsRepeated bodyEnds greed (most.map (· - 1)) least r').findSome? goOn :=
        funext fun r' => ih _ r'
      cases greed with
      | greedy | lazy => simp only [repeated, endsRepeated, hnext, hbody r, findSome?_flatMap]
      | possessive =>
          simp only [repeated, endsRepeated, hnext, hbody.run_some, head?_bind, findSome?_flatMap]

theorem repeatedChar_eq (k : CharClass) (least : Nat) (most : Option Nat) (greed : Greed)
    (r : Reading) (goOn : Reading → Option Reading) :
    repeatedChar k least most greed r goOn =
      (endsChar k least most greed r).findSome? goOn := by
  rw [repeatedChar, endsChar]
  cases r.cursor.readExactly? k.admits least with
  | none => rfl
  | some c =>
      cases greed with
      | greedy =>
          simp only [Cursor.stops_eq_nearest, List.append_nil, List.findSome?_map]
          rfl
      | lazy =>
          simp only [Cursor.nearest?_eq_findSome?, List.findSome?_map]
          rfl
      | possessive =>
          simp only [Cursor.stops_eq_nearest, List.append_nil, head?_bind, List.findSome?_map]
          rfl

/-- A run gives the first answer of its continuation at the ends of the pattern. -/
theorem run_eq_findSome? (p : Pattern) : Asks p.run p.ends := by
  induction p with
  | empty => exact fun r goOn => (List.findSome?_singleton).symm
  | one k =>
      intro r goOn
      obtain ⟨⟨before, after, index⟩, captures⟩ := r
      cases after with
      | nil => rfl
      | cons c after =>
          simp only [run, ends]
          split
          · exact (List.findSome?_singleton).symm
          · rfl
  | seq a b iha ihb =>
      intro r goOn
      rw [run, ends, findSome?_flatMap, iha]
      exact congrArg (fun ask => (a.ends r).findSome? ask) (funext fun r' => ihb r' goOn)
  | alt a b iha ihb =>
      intro r goOn
      rw [run, ends, List.findSome?_append, iha, ihb]
      cases (a.ends r).findSome? goOn <;> rfl
  | group index body ih =>
      intro r goOn
      rw [run, ends, List.findSome?_map, ih]
      rfl
  | many k least most greed => exact fun r goOn => repeatedChar_eq k least most greed r goOn
  | loop body least most greed ih =>
      exact fun r goOn => repeated_eq (fun r goOn => ih r goOn) greed goOn most least r
  | edge place =>
      intro r goOn
      rw [run, ends]
      split
      · exact (List.findSome?_singleton).symm
      · rfl
  | ahead wanted body ih =>
      intro r goOn
      rw [run, ends, ih.run_some]
      cases (body.ends r).head? <;> cases wanted <;> simp
  | behind wanted width body ih =>
      intro r goOn
      simp only [run, ends, ih.run_some]
      cases (r.cursor.back? width).bind fun cursor => (body.ends { r with cursor }).head? <;>
        cases wanted <;> simp
  | atomic body ih =>
      intro r goOn
      rw [run, ends, ih.run_some, head?_bind]
  | again index rule =>
      intro r goOn
      rw [run, ends]
      cases r.capture? index with
      | none => rfl
      | some capture => cases h : r.again? rule capture.text <;> simp [h]
  | ifGroup index yes no ihyes ihno =>
      intro r goOn
      rw [run, ends]
      split
      · exact ihyes r goOn
      · exact ihno r goOn

theorem matchAt?_eq (p : Pattern) (c : Cursor) :
    p.matchAt? c = (p.ends ⟨c, []⟩).head?.map fun r => ⟨c, r⟩ := by
  rw [matchAt?, (run_eq_findSome? p).run_some]

end Pattern

end EnvAudit
