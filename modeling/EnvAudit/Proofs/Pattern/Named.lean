import EnvAudit.Proofs.Pattern.First

/-!
# Patterns that read a name

A pattern with one group reads a lead, then a name, which the group remembers, and then a tail.  The
sets of leads and tails of a sequence hold the texts of its parts put together.
-/

namespace EnvAudit

namespace Reading

/-- The run after a lead, a name that group 1 remembers and a tail, with `rest` ahead. -/
def named (r : Reading) (lead name tail rest : List Char) : Reading :=
  let atName := r.pass lead (name ++ (tail ++ rest))
  ((atName.pass name (tail ++ rest)).close 1 atName.cursor).pass tail rest

theorem named_pass (r : Reading) (front lead name tail rest : List Char) :
    (r.pass front (lead ++ (name ++ (tail ++ rest)))).named lead name tail rest =
      r.named (front ++ lead) name tail rest := by
  rw [named, named, r.pass_pass front lead _]

theorem named_nil {r : Reading} {name rest : List Char} (hafter : r.cursor.after = name ++ rest) :
    r.named [] name [] rest = (r.pass name rest).close 1 r.cursor := by
  have hr : r.pass [] (name ++ rest) = r := by rw [← hafter, pass_nil]
  simp only [named, List.nil_append, hr]
  rfl

theorem pass_named (r : Reading) (lead name tail more rest : List Char) :
    (r.named lead name tail (more ++ rest)).pass more rest =
      r.named lead name (tail ++ more) rest := by
  simp only [named, pass_pass, List.append_assoc]

theorem cursor_named (r : Reading) (lead name tail rest : List Char) :
    (r.named lead name tail rest).cursor =
      (r.pass (lead ++ (name ++ tail)) rest).cursor := by
  simp [named, pass, close, Nat.add_assoc]

theorem capture?_named (r : Reading) (lead name tail rest : List Char) :
    ((r.named lead name tail rest).capture? 1).map Capture.text = some name :=
  congrArg some (Pattern.text_pass rfl)

end Reading

namespace Pattern

variable {S E : Cursor → Prop} {a b p : Pattern} {A B L V C : Set (List Char)}

/-- From a place with `S` the pattern can end exactly after a lead of `L`, a name of `V` and a tail
of `B` at a place with `E`; from no other place can it end. -/
def ReadsNamed (S : Cursor → Prop) (p : Pattern) (L V B : Set (List Char)) (E : Cursor → Prop) :
    Prop :=
  ∀ r r', r' ∈ p.ends r ↔
    S r.cursor ∧ ∃ lead ∈ L, ∃ name ∈ V, ∃ tail ∈ B, ∃ rest,
      r.cursor.after = lead ++ (name ++ (tail ++ rest)) ∧ E r'.cursor ∧
        r' = r.named lead name tail rest

/-- The pattern reads its leads, names and tails from any place to any place. -/
abbrev ReadsNamedAnywhere (p : Pattern) (L V B : Set (List Char)) : Prop :=
  ReadsNamed (fun _ => True) p L V B fun _ => True

theorem ReadsAnywhere.named (hp : ReadsAnywhere p V) :
    ReadsNamedAnywhere (group 1 p) {[]} V {[]} := by
  intro r r'
  rw [ends, List.mem_map]
  constructor
  · rintro ⟨mid, hmid, rfl⟩
    obtain ⟨-, name, hname, rest, hafter, rfl⟩ := (hp r mid).1 hmid
    exact ⟨trivial, [], rfl, name, hname, [], rfl, rest, hafter, trivial,
      (Reading.named_nil hafter).symm⟩
  · rintro ⟨-, _, rfl, name, hname, _, rfl, rest, hafter, -, rfl⟩
    have hafter : r.cursor.after = name ++ rest := hafter
    exact ⟨_, (hp r _).2 ⟨trivial, name, hname, rest, hafter, rfl⟩,
      (Reading.named_nil hafter).symm⟩

theorem Reads.lead (ha : Reads S a A) (hp : ReadsNamed (fun _ => True) p L V B E) :
    ReadsNamed S (a ++ p) (Set.image2 (· ++ ·) A L) V B E := by
  intro r r'
  change r' ∈ (a.ends r).flatMap p.ends ↔ _
  rw [List.mem_flatMap]
  constructor
  · rintro ⟨mid, hmid, hend⟩
    obtain ⟨hplace, front, hfront, next, hafter, rfl⟩ := (ha r mid).1 hmid
    obtain ⟨-, lead, hlead, name, hname, tail, htail, rest, hnext, hE, rfl⟩ := (hp _ r').1 hend
    obtain rfl : next = lead ++ (name ++ (tail ++ rest)) := hnext
    refine ⟨hplace, _, ⟨front, hfront, lead, hlead, rfl⟩, name, hname, tail, htail, rest, ?_, hE, ?_⟩
    · rw [hafter, List.append_assoc]
    · exact r.named_pass front lead name tail rest
  · rintro ⟨hplace, _, ⟨front, hfront, lead, hlead, rfl⟩, name, hname, tail, htail, rest, hafter, hE,
      rfl⟩
    rw [List.append_assoc] at hafter
    refine ⟨_, (ha r _).2 ⟨hplace, front, hfront, _, hafter, rfl⟩, (hp _ _).2 ⟨trivial, ?_⟩⟩
    exact ⟨lead, hlead, name, hname, tail, htail, rest, rfl, hE,
      (r.named_pass front lead name tail rest).symm⟩

theorem ReadsNamed.tail (hp : ReadsNamed S p L V B fun _ => True) (hb : ReadsAnywhere b C) :
    ReadsNamed S (p ++ b) L V (Set.image2 (· ++ ·) B C) fun _ => True := by
  intro r r'
  change r' ∈ (p.ends r).flatMap b.ends ↔ _
  rw [List.mem_flatMap]
  constructor
  · rintro ⟨mid, hmid, hend⟩
    obtain ⟨hplace, lead, hlead, name, hname, tail, htail, next, hafter, -, rfl⟩ := (hp r mid).1 hmid
    obtain ⟨-, more, hmore, rest, hnext, rfl⟩ := (hb _ r').1 hend
    obtain rfl : next = more ++ rest := hnext
    refine ⟨hplace, lead, hlead, name, hname, _, ⟨tail, htail, more, hmore, rfl⟩, rest, ?_, trivial,
      r.pass_named lead name tail more rest⟩
    rw [hafter, List.append_assoc tail]
  · rintro ⟨hplace, lead, hlead, name, hname, _, ⟨tail, htail, more, hmore, rfl⟩, rest, hafter, -, rfl⟩
    rw [List.append_assoc tail] at hafter
    refine ⟨_, (hp r _).2 ⟨hplace, lead, hlead, name, hname, tail, htail, _, hafter, trivial, rfl⟩, ?_⟩
    exact (hb _ _).2 ⟨trivial, more, hmore, rest, rfl, (r.pass_named lead name tail more rest).symm⟩

theorem ReadsNamed.edge (hp : ReadsNamed S p L V B fun _ => True) (place : Edge) :
    ReadsNamed S (p ++ edge place) L V B fun c => c.isAt place = true := by
  intro r r'
  change r' ∈ (p.ends r).flatMap (Pattern.edge place).ends ↔ _
  rw [List.mem_flatMap]
  constructor
  · rintro ⟨mid, hmid, hend⟩
    obtain ⟨hplace, rfl⟩ := mem_ends_edge.1 hend
    obtain ⟨hS, lead, hlead, name, hname, tail, htail, rest, hafter, -, hmid⟩ := (hp r r').1 hmid
    exact ⟨hS, lead, hlead, name, hname, tail, htail, rest, hafter, hplace, hmid⟩
  · rintro ⟨hS, lead, hlead, name, hname, tail, htail, rest, hafter, hplace, hr'⟩
    refine ⟨r', (hp r r').2 ⟨hS, lead, hlead, name, hname, tail, htail, rest, hafter, trivial, hr'⟩, ?_⟩
    exact mem_ends_edge.2 ⟨hplace, rfl⟩

/-! ## All matches -/

/-- A match that no match from an earlier place reaches into is among all matches. -/
theorem mem_matchesFrom {before skipped rest : List Char} {index free : Nat} {m : Match}
    (hm : p.matchAt? ⟨skipped.reverse ++ before, rest, index + skipped.length⟩ = some m)
    (hfree : free ≤ index + skipped.length)
    (hearlier : ∀ front more, skipped = front ++ more → more ≠ [] → ∀ earlier : Match,
      p.matchAt? ⟨front.reverse ++ before, more ++ rest, index + front.length⟩ = some earlier →
        index + front.length < earlier.reading.cursor.index ∧
          earlier.reading.cursor.index ≤ index + skipped.length) :
    m ∈ p.matchesFrom before index free (skipped ++ rest) := by
  induction skipped generalizing before index free with
  | nil =>
      have hat : ∃ more, p.matchesAt ⟨before, rest, index⟩ = m :: more := by
        have hm : p.matchAt? ⟨before, rest, index⟩ = some m := hm
        rw [matchesAt, hm]
        simp only
        split
        · exact ⟨_, rfl⟩
        · exact ⟨[], rfl⟩
      obtain ⟨more, hat⟩ := hat
      have hnot : ¬ index < free := Nat.not_lt.2 hfree
      cases rest with
      | nil =>
          rw [List.append_nil, matchesFrom, if_neg hnot, hat]
          exact List.mem_cons_self
      | cons c rest =>
          rw [List.nil_append, matchesFrom, if_neg hnot]
          simp only [hat]
          exact List.mem_append_left _ List.mem_cons_self
  | cons c skipped ih =>
      have hlength : index + 1 + skipped.length = index + (c :: skipped).length := by
        rw [List.length_cons]
        omega
      have hnext : ∀ free, free ≤ index + (c :: skipped).length →
          m ∈ p.matchesFrom (c :: before) (index + 1) free (skipped ++ rest) := by
        intro free hfree
        refine ih ?_ (hlength ▸ hfree) ?_
        · rw [hlength]
          simpa using hm
        · intro front more heq hmore earlier hfound
          have hcons := hearlier (c :: front) more (by rw [heq]; rfl) hmore earlier
          have hfront : index + 1 + front.length = index + (c :: front).length := by
            rw [List.length_cons]
            omega
          rw [hfront] at hfound ⊢
          rw [hlength]
          exact hcons (by simpa using hfound)
      rw [List.cons_append, matchesFrom]
      split
      · exact hnext free hfree
      · cases hfound : p.matchAt? ⟨before, c :: (skipped ++ rest), index⟩ with
        | none =>
            have hat : p.matchesAt ⟨before, c :: (skipped ++ rest), index⟩ = [] := by
              rw [matchesAt, hfound]
            simp only [hat]
            exact hnext free hfree
        | some earlier =>
            obtain ⟨hmoved, hstop⟩ := hearlier [] (c :: skipped) rfl (by simp) earlier hfound
            simp only [matchesAt_of_moved hfound hmoved]
            exact List.mem_cons_of_mem _ (hnext _ hstop)

end Pattern

end EnvAudit
