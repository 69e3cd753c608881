import EnvAudit.Proofs.Pattern.First

/-!
# Repeated patterns and skipped characters

A repetition goes on from each end of its body as from its own start, and this determines its ends.
Where a pattern cannot begin the search for it goes on to the next character.
-/

namespace EnvAudit.Pattern

variable {A : Set (List Char)} {a b p : Pattern} {k : CharClass} {r r' mid : Reading}
  {rest : List Char}

/-! ## Rounds of a repetition -/

/-- Every end of the pattern lies ahead in the same text. -/
def Proceeds (p : Pattern) : Prop :=
  ∀ r, ∀ r' ∈ p.ends r, r.cursor.index < r'.cursor.index ∧
    r'.cursor.index + r'.cursor.after.length = r.cursor.index + r.cursor.after.length

theorem Reads.proceeds (hp : ReadsAnywhere p A) (hA : [] ∉ A) : Proceeds p := by
  intro r r' hmem
  obtain ⟨-, front, hfront, rest, hafter, rfl⟩ := (hp r r').1 hmem
  have hpos : 0 < front.length := List.length_pos_iff.2 fun hnil => hA (hnil ▸ hfront)
  rw [hafter, List.length_append]
  exact ⟨Nat.lt_add_of_pos_right hpos, Nat.add_assoc ..⟩

theorem proceeds_one (k : CharClass) : Proceeds (one k) := (reads_one k).proceeds (by simp)

theorem Proceeds.alt (ha : Proceeds a) (hb : Proceeds b) : Proceeds (a ||| b) :=
  fun r r' hmem => (List.mem_append.1 hmem).elim (ha r r') (hb r r')

theorem Proceeds.seq_star (hp : Proceeds p) (k : CharClass) : Proceeds (p ++ star k) := by
  intro r r' hmem
  obtain ⟨mid, hmid, hend⟩ := List.mem_flatMap.1 hmem
  obtain ⟨hmoved, hsame⟩ := hp r mid hmid
  obtain ⟨-, front, -, rest, hafter, rfl⟩ := (reads_star k mid r').1 hend
  rw [hafter, List.length_append, ← Nat.add_assoc] at hsame
  exact ⟨Nat.lt_add_right _ hmoved, hsame⟩

theorem ends_loop_eq (p : Pattern) (r : Reading) :
    (loop p 0 none .greedy).ends r = (p.ends r).flatMap (endsMore (fun r => p.ends r) .greedy
      r.cursor.after none (some r.cursor.index)) ++ [r] := by
  have hloop : (loop p 0 none .greedy).ends r =
      endsMore (fun r => p.ends r) .greedy (' ' :: r.cursor.after) none none r := rfl
  rw [hloop]
  simp only [endsMore, Option.map_none]
  rw [if_pos (by simp)]

/-- A repetition goes on in the same way with any count of rounds that the text does not exceed. -/
theorem Proceeds.endsMore_eq (hp : Proceeds p) {budget : List Char} {last : Option Nat}
    (hlast : last ≠ some r.cursor.index) (hbudget : r.cursor.after.length < budget.length) :
    endsMore (fun r => p.ends r) .greedy budget none last r = (loop p 0 none .greedy).ends r := by
  induction hlength : r.cursor.after.length using Nat.strong_induction_on
    generalizing r budget last with
  | _ length ih =>
      obtain ⟨_, budget, rfl⟩ := List.exists_cons_of_length_pos (Nat.zero_lt_of_lt hbudget)
      simp only [ends_loop_eq, endsMore, Option.map_none]
      rw [if_pos (by simp [hlast])]
      congr 1
      refine List.flatMap_congr fun mid hmid => ?_
      obtain ⟨hmoved, hsame⟩ := hp r mid hmid
      have hshort : mid.cursor.after.length < length := by omega
      have hnext : some r.cursor.index ≠ some mid.cursor.index := by simpa using hmoved.ne
      rw [List.length_cons] at hbudget
      rw [ih _ hshort hnext (by omega) rfl, ih _ hshort hnext (by omega) rfl]

/-- After each end of its body a repetition goes on as from its start, and last it ends at once. -/
theorem Proceeds.ends_loop (hp : Proceeds p) (r : Reading) :
    (loop p 0 none .greedy).ends r = (p.ends r).flatMap (loop p 0 none .greedy).ends ++ [r] := by
  rw [ends_loop_eq]
  congr 1
  refine List.flatMap_congr fun mid hmid => ?_
  obtain ⟨hmoved, hsame⟩ := hp r mid hmid
  exact hp.endsMore_eq (by simpa using hmoved.ne) (by omega)

/-- Nothing else goes on in this way. -/
theorem Proceeds.eq_ends_loop (hp : Proceeds p) {ends : Reading → List Reading}
    (h : ∀ r, ends r = (p.ends r).flatMap ends ++ [r]) (r : Reading) :
    ends r = (loop p 0 none .greedy).ends r := by
  induction hlength : r.cursor.after.length using Nat.strong_induction_on generalizing r with
  | _ length ih =>
      rw [h, hp.ends_loop]
      congr 1
      refine List.flatMap_congr fun mid hmid => ?_
      obtain ⟨hmoved, hsame⟩ := hp r mid hmid
      exact ih _ (by omega) mid rfl

theorem ends_star (k : CharClass) (r : Reading) :
    (star k).ends r = ((one k).ends r).flatMap (star k).ends ++ [r] := by
  obtain ⟨⟨before, after, index⟩, captures⟩ := r
  cases after with
  | nil => simp [star, ends, endsChar, Cursor.readExactly?, Cursor.nearest]
  | cons c after =>
      by_cases hc : k.admits c = true
      · simp [star, ends, endsChar, Cursor.readExactly?, Cursor.nearest, hc]
      · simp [star, ends, endsChar, Cursor.readExactly?, Cursor.nearest, hc]

/-- Where a character is one of two alternatives, to repeat them is to read as many such characters as
there are, and then again behind each round of the other one. -/
theorem Proceeds.ends_star_seq_loop (hp : Proceeds p) (k : CharClass) (r : Reading) :
    (star k ++ loop (p ++ star k) 0 none .greedy).ends r =
      (loop (one k ||| p) 0 none .greedy).ends r := by
  refine ((proceeds_one k).alt hp).eq_ends_loop (fun r => ?_) r
  let rounds := loop (p ++ star k) 0 none .greedy
  calc (star k ++ rounds).ends r
      = ((star k).ends r).flatMap rounds.ends := rfl
    _ = (((one k).ends r).flatMap (star k).ends).flatMap rounds.ends ++ rounds.ends r := by
        rw [ends_star, List.flatMap_append, List.flatMap_singleton]
    _ = (((one k).ends r).flatMap (star k).ends).flatMap rounds.ends ++
          (((p.ends r).flatMap (star k).ends).flatMap rounds.ends ++ [r]) :=
        congrArg (_ ++ ·) ((hp.seq_star k).ends_loop r)
    _ = ((one k).ends r).flatMap (star k ++ rounds).ends ++
          ((p.ends r).flatMap (star k ++ rounds).ends ++ [r]) := by
        rw [List.flatMap_assoc, List.flatMap_assoc]
        rfl
    _ = ((one k ||| p).ends r).flatMap (star k ++ rounds).ends ++ [r] := by
        rw [← List.append_assoc, ← List.flatMap_append]
        rfl

/-- A repetition that first reads its body goes on behind it. -/
theorem First.loop_round (hp : Proceeds p) (h : First p r mid)
    (hmore : First (loop p 0 none .greedy) mid r') : First (loop p 0 none .greedy) r r' := by
  rw [First, hp.ends_loop, List.head?_append, head?_flatMap_of_head? h hmore, Option.some_or]

theorem first_loop_stop (hp : Proceeds p) (h : p.ends r = []) :
    First (loop p 0 none .greedy) r r := by
  rw [First, hp.ends_loop, h]
  rfl

/-- The second of two alternatives counts where the first cannot be read. -/
theorem First.alt_right (ha : a.ends r = []) (hb : First b r r') : First (a ||| b) r r' := by
  have hends : (a ||| b).ends r = a.ends r ++ b.ends r := rfl
  rw [First, hends, ha, List.nil_append]
  exact hb

theorem ends_alt_eq_nil (ha : a.ends r = []) (hb : b.ends r = []) : (a ||| b).ends r = [] := by
  have hends : (a ||| b).ends r = a.ends r ++ b.ends r := rfl
  rw [hends, ha, hb, List.append_nil]

theorem ends_one_eq_nil (h : ∀ c ∈ r.cursor.after.head?, k.admits c = false) :
    (one k).ends r = [] := by
  obtain ⟨⟨before, after, index⟩, captures⟩ := r
  cases after with
  | nil => rfl
  | cons c after => simp [ends, h c rfl]

/-! ## Skipped characters -/

/-- No match begins at characters at which the pattern cannot begin. -/
theorem matchesFrom_skip {before skipped : List Char} {index free : Nat} (hfree : free ≤ index)
    (h : ∀ c ∈ skipped, ∀ r : Reading, r.cursor.after.head? = some c → p.ends r = []) :
    p.matchesFrom before index free (skipped ++ rest) =
      p.matchesFrom (skipped.reverse ++ before) (index + skipped.length) free rest := by
  induction skipped generalizing before index with
  | nil => rfl
  | cons c skipped ih =>
      obtain ⟨hc, hskipped⟩ := List.forall_mem_cons.1 h
      have hat : p.matchesAt ⟨before, c :: (skipped ++ rest), index⟩ = [] :=
        matchesAt_eq_nil (hc _ rfl)
      rw [List.cons_append, matchesFrom, if_neg (by omega), hat]
      dsimp only
      rw [ih (by omega) hskipped]
      simp [Nat.add_assoc, Nat.add_comm 1]

end EnvAudit.Pattern
