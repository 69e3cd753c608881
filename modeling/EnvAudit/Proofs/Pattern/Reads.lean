import EnvAudit.Proofs.Pattern.Classes
import EnvAudit.Proofs.Pattern.Ends
import Mathlib.Data.Set.NAry

/-!
# What a pattern reads

A pattern without groups reads a set of texts, from any place where it may begin.  The set of a
sequence holds the texts of its parts put together.
-/

namespace EnvAudit

/-- The run after the next characters `front` are read, with `rest` ahead. -/
def Reading.pass (r : Reading) (front rest : List Char) : Reading :=
  { r with cursor := ⟨front.reverse ++ r.cursor.before, rest, r.cursor.index + front.length⟩ }

theorem Reading.pass_nil (r : Reading) : r.pass [] r.cursor.after = r := rfl

theorem Reading.pass_pass (r : Reading) (a b rest : List Char) :
    (r.pass a (b ++ rest)).pass b rest = r.pass (a ++ b) rest := by
  simp [pass, Nat.add_assoc]

namespace Pattern

variable {S : Cursor → Prop} {a b p : Pattern} {A B : Set (List Char)}

/-- From a place with `S` the pattern can end exactly after the texts of `A`; from no other place
can it end. -/
def Reads (S : Cursor → Prop) (p : Pattern) (A : Set (List Char)) : Prop :=
  ∀ r r', r' ∈ p.ends r ↔
    S r.cursor ∧ ∃ front ∈ A, ∃ rest, r.cursor.after = front ++ rest ∧ r' = r.pass front rest

/-- The pattern reads the texts of `A` from any place. -/
abbrev ReadsAnywhere (p : Pattern) (A : Set (List Char)) : Prop := Reads (fun _ => True) p A

theorem reads_empty : ReadsAnywhere empty {[]} := by
  intro r r'
  simp [ends, Reading.pass]

theorem reads_edge (place : Edge) : Reads (fun c => c.isAt place = true) (edge place) {[]} := by
  intro r r'
  rw [ends]
  split <;> simp_all [Reading.pass]

theorem reads_one (k : CharClass) :
    ReadsAnywhere (one k) {front | ∃ c, k.admits c = true ∧ front = [c]} := by
  intro r r'
  obtain ⟨⟨before, after, index⟩, captures⟩ := r
  cases after with
  | nil => simp [ends]
  | cons c after =>
      simp only [ends]
      split <;> simp_all [Reading.pass]

theorem Reads.seq (ha : Reads S a A) (hb : ReadsAnywhere b B) :
    Reads S (a ++ b) (Set.image2 (· ++ ·) A B) := by
  intro r r'
  change r' ∈ (a.ends r).flatMap b.ends ↔ _
  rw [List.mem_flatMap]
  constructor
  · rintro ⟨mid, hmid, hend⟩
    obtain ⟨hplace, front, hfront, rest, hafter, rfl⟩ := (ha r mid).1 hmid
    obtain ⟨-, more, hmore, rest', hrest, rfl⟩ := (hb _ r').1 hend
    have hrest : rest = more ++ rest' := hrest
    subst hrest
    refine ⟨hplace, front ++ more, ⟨front, hfront, more, hmore, rfl⟩, rest', ?_, ?_⟩
    · rw [hafter, List.append_assoc]
    · exact r.pass_pass front more rest'
  · rintro ⟨hplace, _, ⟨front, hfront, more, hmore, rfl⟩, rest, hafter, rfl⟩
    rw [List.append_assoc] at hafter
    refine ⟨r.pass front (more ++ rest), (ha r _).2 ⟨hplace, front, hfront, _, hafter, rfl⟩, ?_⟩
    exact (hb _ _).2 ⟨trivial, more, hmore, rest, rfl, (r.pass_pass front more rest).symm⟩

theorem Reads.alt (ha : Reads S a A) (hb : Reads S b B) : Reads S (a ||| b) (A ∪ B) := by
  intro r r'
  change r' ∈ a.ends r ++ b.ends r ↔ _
  rw [List.mem_append, ha, hb]
  constructor
  · rintro (⟨hplace, front, hfront, rest⟩ | ⟨hplace, front, hfront, rest⟩)
    · exact ⟨hplace, front, .inl hfront, rest⟩
    · exact ⟨hplace, front, .inr hfront, rest⟩
  · rintro ⟨hplace, front, hfront | hfront, rest⟩
    · exact .inl ⟨hplace, front, hfront, rest⟩
    · exact .inr ⟨hplace, front, hfront, rest⟩

theorem reads_ofChar (c : Char) : ReadsAnywhere (one (.ofChar c)) {[c]} := by
  have hone := reads_one (.ofChar c)
  have hset : {front | ∃ d, (CharClass.ofChar c).admits d = true ∧ front = [d]} = {[c]} := by
    ext front
    simp [CharClass.admits_ofChar]
  rwa [hset] at hone

theorem reads_text (s : String) : ReadsAnywhere (text s) {s.toList} := by
  rw [text]
  induction s.toList with
  | nil => exact reads_empty
  | cons c rest ih =>
      have hseq := (reads_ofChar c).seq ih
      rwa [Set.image2_singleton, List.singleton_append] at hseq

/-! ## Repetition -/

theorem mem_nearest_iff {test : Char → Bool} {before after : List Char} {index : Nat}
    {c : Cursor} :
    c ∈ Cursor.nearest test before index after none ↔
      ∃ front rest, after = front ++ rest ∧ (∀ ch ∈ front, test ch = true) ∧
        c = ⟨front.reverse ++ before, rest, index + front.length⟩ := by
  induction after generalizing before index with
  | nil =>
      rw [Cursor.nearest, List.mem_singleton]
      constructor
      · rintro rfl
        exact ⟨[], [], rfl, by simp, rfl⟩
      · rintro ⟨front, rest, heq, -, rfl⟩
        obtain ⟨rfl, rfl⟩ := List.append_eq_nil_iff.1 heq.symm
        rfl
  | cons ch after ih =>
      rw [Cursor.nearest, List.mem_cons]
      constructor
      · rintro (rfl | hmem)
        · exact ⟨[], ch :: after, rfl, by simp, rfl⟩
        · split at hmem
          · rename_i htest
            obtain ⟨front, rest, rfl, hall, rfl⟩ := ih.1 hmem
            refine ⟨ch :: front, rest, rfl, ?_, ?_⟩
            · simpa using ⟨by simpa using htest, hall⟩
            · simp [Nat.add_assoc, Nat.add_comm 1]
          · cases hmem
      · rintro ⟨front, rest, heq, hall, rfl⟩
        cases front with
        | nil =>
            rw [List.nil_append] at heq
            exact .inl (by simp [← heq])
        | cons first front =>
            obtain ⟨rfl, rfl⟩ := List.cons.inj heq
            have hfirst := hall ch List.mem_cons_self
            refine .inr ?_
            rw [if_pos (by simpa using hfirst)]
            refine ih.2 ⟨front, rest, rfl, fun c hc => hall c (List.mem_cons_of_mem _ hc), ?_⟩
            simp [Nat.add_assoc, Nat.add_comm 1]

theorem reads_star (k : CharClass) :
    ReadsAnywhere (star k) {front | ∀ c ∈ front, k.admits c = true} := by
  intro r r'
  simp only [star, ends, endsChar, Cursor.readExactly?, Option.map_none, List.mem_map,
    List.mem_reverse, mem_nearest_iff, true_and, Set.mem_ofPred_eq]
  constructor
  · rintro ⟨_, ⟨front, rest, hafter, hall, rfl⟩, rfl⟩
    exact ⟨front, hall, rest, hafter, rfl⟩
  · rintro ⟨front, hall, rest, hafter, rfl⟩
    exact ⟨_, ⟨front, rest, hafter, hall, rfl⟩, rfl⟩

theorem reads_plus (k : CharClass) :
    ReadsAnywhere (plus k) {front | front ≠ [] ∧ ∀ c ∈ front, k.admits c = true} := by
  intro r r'
  obtain ⟨⟨before, after, index⟩, captures⟩ := r
  simp only [plus, ends, endsChar]
  cases after with
  | nil => simp [Cursor.readExactly?]
  | cons ch after =>
      simp only [Cursor.readExactly?]
      by_cases htest : k.admits ch = true
      · simp only [htest, if_true, Option.map_none, List.mem_map, List.mem_reverse,
          mem_nearest_iff, true_and, Set.mem_ofPred_eq]
        constructor
        · rintro ⟨_, ⟨front, rest, rfl, hall, rfl⟩, rfl⟩
          refine ⟨ch :: front, ⟨by simp, by simpa using ⟨htest, hall⟩⟩, rest, rfl, ?_⟩
          simp [Reading.pass, Nat.add_assoc, Nat.add_comm 1]
        · rintro ⟨front, ⟨hne, hall⟩, rest, hafter, rfl⟩
          obtain ⟨first, more, rfl⟩ := List.exists_cons_of_ne_nil hne
          obtain ⟨rfl, rfl⟩ := List.cons.inj hafter
          refine ⟨_, ⟨more, rest, rfl, fun c hc => hall c (List.mem_cons_of_mem _ hc), rfl⟩, ?_⟩
          simp [Reading.pass, Nat.add_assoc, Nat.add_comm 1]
      · simp only [htest, Bool.false_eq_true, if_false, List.not_mem_nil, true_and, false_iff,
          Set.mem_ofPred_eq]
        rintro ⟨front, ⟨hne, hall⟩, rest, hafter, -⟩
        obtain ⟨first, more, rfl⟩ := List.exists_cons_of_ne_nil hne
        obtain ⟨rfl, rfl⟩ := List.cons.inj hafter
        exact htest (hall ch List.mem_cons_self)

/-- An option first reads its body, and then nothing. -/
theorem ends_opt (p : Pattern) (r : Reading) : (opt p).ends r = p.ends r ++ [r] := by
  have hnext : endsMore (fun r => p.ends r) .greedy r.cursor.after (some 0)
      (some r.cursor.index) = fun r' => [r'] := by
    funext r'
    cases r.cursor.after <;> simp [endsMore]
  have hflat : (p.ends r).flatMap (fun r' => [r']) = p.ends r := List.flatMap_singleton' _
  simp [opt, ends, endsRepeated, endsMore, hnext, hflat]

/-- An option reads nothing or what its body reads. -/
theorem Reads.opt (hp : ReadsAnywhere p A) : ReadsAnywhere (opt p) (insert [] A) := by
  intro r r'
  rw [ends_opt, List.mem_append, hp, List.mem_singleton]
  constructor
  · rintro (⟨-, front, hfront, rest, hafter, rfl⟩ | rfl)
    · exact ⟨trivial, front, .inr hfront, rest, hafter, rfl⟩
    · exact ⟨trivial, [], .inl rfl, r'.cursor.after, rfl, r'.pass_nil.symm⟩
  · rintro ⟨-, front, rfl | hfront, rest, hafter, rfl⟩
    · refine .inr ?_
      rw [List.nil_append] at hafter
      rw [← hafter, Reading.pass_nil]
    · exact .inl ⟨trivial, front, hfront, rest, hafter, rfl⟩

/-! ## Occurrence -/

theorem findFrom?_isSome_iff {before after : List Char} {index : Nat} :
    (p.findFrom? before index after).isSome ↔
      ∃ front rest, after = front ++ rest ∧
        p.ends ⟨⟨front.reverse ++ before, rest, index + front.length⟩, []⟩ ≠ [] := by
  induction after generalizing before index with
  | nil =>
      rw [findFrom?, matchAt?_eq, Option.isSome_map, List.isSome_head?]
      constructor
      · intro h
        exact ⟨[], [], rfl, by simpa using h⟩
      · rintro ⟨front, rest, heq, h⟩
        obtain ⟨rfl, rfl⟩ := List.append_eq_nil_iff.1 heq.symm
        simpa using h
  | cons c after ih =>
      have hmatch : (p.matchAt? ⟨before, c :: after, index⟩).isSome ↔
          p.ends ⟨⟨before, c :: after, index⟩, []⟩ ≠ [] := by
        rw [matchAt?_eq, Option.isSome_map, List.isSome_head?]
      have hcons : (p.findFrom? before index (c :: after)).isSome ↔
          (p.matchAt? ⟨before, c :: after, index⟩).isSome ∨
            (p.findFrom? (c :: before) (index + 1) after).isSome := by
        rw [findFrom?]
        cases p.matchAt? ⟨before, c :: after, index⟩ <;> simp
      rw [hcons, hmatch, ih]
      constructor
      · rintro (h | ⟨front, rest, rfl, h⟩)
        · exact ⟨[], c :: after, rfl, h⟩
        · refine ⟨c :: front, rest, rfl, ?_⟩
          simpa [Nat.add_assoc, Nat.add_comm 1] using h
      · rintro ⟨front, rest, heq, h⟩
        cases front with
        | nil =>
            rw [List.nil_append] at heq
            exact .inl (by simpa [heq] using h)
        | cons first front =>
            obtain ⟨rfl, rfl⟩ := List.cons.inj heq
            refine .inr ⟨front, rest, rfl, ?_⟩
            simpa [Nat.add_assoc, Nat.add_comm 1] using h

theorem occursIn_of_matchAt? {front rest : List Char} {m : Match}
    (h : p.matchAt? ⟨front.reverse, rest, front.length⟩ = some m) :
    p.occursIn (front ++ rest) = true := by
  rw [matchAt?_eq, Option.map_eq_some_iff] at h
  obtain ⟨r, hr, -⟩ := h
  rw [occursIn, find?, findFrom?_isSome_iff]
  refine ⟨front, rest, rfl, ?_⟩
  rw [List.append_nil, Nat.zero_add]
  exact List.ne_nil_of_mem (List.mem_of_head? hr)

/-- A pattern occurs in a text exactly where one of the texts that it reads stands at a place from
which it may begin. -/
theorem Reads.occursIn_iff (hp : Reads S p A) (content : List Char) :
    p.occursIn content = true ↔
      ∃ front, ∃ read ∈ A, ∃ rest, content = front ++ (read ++ rest) ∧
        S ⟨front.reverse, read ++ rest, front.length⟩ := by
  rw [occursIn, find?, findFrom?_isSome_iff]
  simp only [List.append_nil, Nat.zero_add]
  constructor
  · rintro ⟨front, after, rfl, hends⟩
    obtain ⟨r', hr'⟩ := List.exists_mem_of_ne_nil _ hends
    obtain ⟨hplace, read, hread, rest, hafter, -⟩ := (hp _ r').1 hr'
    have hafter : after = read ++ rest := hafter
    exact ⟨front, read, hread, rest, by rw [hafter], hafter ▸ hplace⟩
  · rintro ⟨front, read, hread, rest, rfl, hplace⟩
    exact ⟨front, read ++ rest, rfl,
      List.ne_nil_of_mem ((hp _ _).2 ⟨hplace, read, hread, rest, rfl, rfl⟩)⟩

end Pattern

end EnvAudit
