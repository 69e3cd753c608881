import EnvAudit.Proofs.Pattern.Reads
import Mathlib.Data.List.TakeWhile

/-!
# The first way to end

A match is the first end of its pattern.  The first end of a sequence is reached by way of the first
ends of its parts, a repetition first reads as much as there is, and a lazy one as little as what
comes behind it allows.
-/

namespace EnvAudit

theorem head?_flatMap_of_head? {α β : Type} {l : List α} {f : α → List β} {a : α} {b : β}
    (ha : l.head? = some a) (hb : (f a).head? = some b) : (l.flatMap f).head? = some b := by
  obtain ⟨more, rfl⟩ := List.head?_eq_some_iff.1 ha
  rw [List.flatMap_cons, List.head?_append, hb, Option.some_or]

namespace Cursor

variable {test : Char → Bool} {before front rest : List Char} {index : Nat}

/-- The farthest place is behind all characters that pass the test. -/
theorem getLast?_nearest (hall : ∀ c ∈ front, test c = true)
    (hstop : ∀ c ∈ rest.head?, test c = false) :
    (nearest test before index (front ++ rest) none).getLast? =
      some ⟨front.reverse ++ before, rest, index + front.length⟩ := by
  induction front generalizing before index with
  | nil =>
      cases rest with
      | nil => rfl
      | cons c rest =>
          have hc : test c = false := hstop c rfl
          simp [nearest, hc]
  | cons c front ih =>
      have hc : test c = true := hall c List.mem_cons_self
      have hrest : (nearest test (c :: before) (index + 1) (front ++ rest) none).getLast? =
          some ⟨front.reverse ++ c :: before, rest, index + 1 + front.length⟩ :=
        ih fun d hd => hall d (List.mem_cons_of_mem c hd)
      rw [List.cons_append, nearest, if_pos (by simp [hc]), Option.map_none, List.getLast?_cons,
        hrest, Option.getD_some]
      simp [Nat.add_assoc, Nat.add_comm 1]

/-- Asked from the nearest place on, the first answer comes from the first place that has one. -/
theorem head?_flatMap_nearest {β : Type} {f : Cursor → List β} {b : β}
    (hall : ∀ c ∈ front, test c = true)
    (hnone : ∀ less more, front = less ++ more → more ≠ [] →
      f ⟨less.reverse ++ before, more ++ rest, index + less.length⟩ = [])
    (hlast : (f ⟨front.reverse ++ before, rest, index + front.length⟩).head? = some b) :
    ((nearest test before index (front ++ rest) none).flatMap f).head? = some b := by
  induction front generalizing before index with
  | nil =>
      have hfirst : (nearest test before index ([] ++ rest) none).head? =
          some ⟨before, rest, index⟩ := by
        cases rest <;> rfl
      exact head?_flatMap_of_head? hfirst hlast
  | cons c front ih =>
      have hhere : f ⟨before, c :: (front ++ rest), index⟩ = [] := hnone [] (c :: front) rfl (by simp)
      have hc : test c = true := hall c List.mem_cons_self
      rw [List.cons_append, nearest, if_pos (by simp [hc]), Option.map_none, List.flatMap_cons,
        hhere, List.nil_append]
      refine ih (fun d hd => hall d (List.mem_cons_of_mem c hd)) ?_ ?_
      · intro less more heq hmore
        have hnext := hnone (c :: less) more (by rw [heq]; rfl) hmore
        simpa [Nat.add_assoc, Nat.add_comm 1] using hnext
      · simpa [Nat.add_assoc, Nat.add_comm 1] using hlast

end Cursor

namespace Pattern

variable {S : Cursor → Prop} {A : Set (List Char)} {a b c p : Pattern} {k : CharClass}
  {r r' mid : Reading} {front rest : List Char} {index : Nat}

/-- The first way for a run of the pattern to end. -/
def First (p : Pattern) (r r' : Reading) : Prop := (p.ends r).head? = some r'

theorem First.mem (h : First p r r') : r' ∈ p.ends r := List.mem_of_head? h

theorem First.matchAt? {c : Cursor} (h : First p ⟨c, []⟩ r') : p.matchAt? c = some ⟨c, r'⟩ := by
  rw [matchAt?_eq, h, Option.map_some]

theorem First.seq (ha : First a r mid) (hb : First b mid r') : First (a ++ b) r r' :=
  head?_flatMap_of_head? ha hb

theorem First.eq {r'' : Reading} (h : First p r r') (h' : First p r r'') : r' = r'' :=
  Option.some.inj (h.symm.trans h')

/-- The first end of a sequence comes from some end of its first part. -/
theorem First.of_seq (h : First (a ++ b) r r') : ∃ mid ∈ a.ends r, First b mid r' := by
  have hflat : ((a.ends r).flatMap b.ends).head? = some r' := h
  rw [List.head?_flatMap] at hflat
  exact List.exists_of_findSome?_eq_some hflat

/-- The first end of a sequence comes from the first end of its first part, if its second part can
always be read. -/
theorem First.of_seq_of_total (hb : ∀ r, b.ends r ≠ []) (h : First (a ++ b) r r') :
    ∃ mid, First a r mid ∧ First b mid r' := by
  have hflat : ((a.ends r).flatMap b.ends).head? = some r' := h
  cases hends : a.ends r with
  | nil => simp [hends] at hflat
  | cons mid more =>
      rw [hends, List.flatMap_cons, List.head?_append] at hflat
      obtain ⟨first, rest, hfirst⟩ := List.exists_cons_of_ne_nil (hb mid)
      refine ⟨mid, by rw [First, hends, List.head?_cons], ?_⟩
      rw [First, ← hflat, hfirst]
      rfl

theorem ends_seq_assoc : (a ++ b ++ c).ends r = (a ++ (b ++ c)).ends r := List.flatMap_assoc

theorem First.alt_left (h : First a r r') : First (a ||| b) r r' := by
  have hends : (a ||| b).ends r = a.ends r ++ b.ends r := rfl
  rw [First, hends, List.head?_append, h, Option.some_or]

theorem First.of_alt (h : First (a ||| b) r r') : First a r r' ∨ First b r r' := by
  have hends : (a ||| b).ends r = a.ends r ++ b.ends r := rfl
  rw [First, hends, List.head?_append, Option.or_eq_some_iff] at h
  exact h.imp id And.right

theorem First.group (h : First p r r') : First (group index p) r (r'.close index r.cursor) := by
  rw [First, ends, List.head?_map, h, Option.map_some]

theorem ends_ahead_eq_nil (h : p.ends r = []) : (Pattern.ahead true p).ends r = [] := by
  rw [ends, h]
  rfl

theorem First.of_group (h : First (Pattern.group index p) r r') :
    ∃ mid, First p r mid ∧ r' = mid.close index r.cursor := by
  rw [First, ends, List.head?_map, Option.map_eq_some_iff] at h
  obtain ⟨mid, hmid, hclose⟩ := h
  exact ⟨mid, hmid, hclose.symm⟩

theorem First.ahead (h : First p r r') : First (ahead true p) r { r' with cursor := r.cursor } := by
  rw [First, ends, h]
  rfl

/-- A pattern that can end in one place only ends there first. -/
theorem Reads.first (hp : Reads S p A) (hplace : S r.cursor) (hfront : front ∈ A)
    (hafter : r.cursor.after = front ++ rest)
    (honly : ∀ other ∈ A, other <+: r.cursor.after → other = front) :
    First p r (r.pass front rest) := by
  have hmem : r.pass front rest ∈ p.ends r :=
    (hp r _).2 ⟨hplace, front, hfront, rest, hafter, rfl⟩
  obtain ⟨first, more, hends⟩ := List.exists_cons_of_ne_nil (List.ne_nil_of_mem hmem)
  have hfirst : first ∈ p.ends r := hends ▸ List.mem_cons_self
  obtain ⟨-, other, hother, rest', hafter', rfl⟩ := (hp r first).1 hfirst
  obtain rfl := honly other hother ⟨rest', hafter'.symm⟩
  obtain rfl := List.append_cancel_left (hafter'.symm.trans hafter)
  rw [First, hends, List.head?_cons]

theorem first_text {s : String} (hafter : r.cursor.after = s.toList ++ rest) :
    First (text s) r (r.pass s.toList rest) :=
  (reads_text s).first trivial rfl hafter fun _ hother _ => hother

theorem ends_text_eq_nil {s : String} (h : ¬ s.toList <+: r.cursor.after) :
    (text s).ends r = [] := by
  refine List.eq_nil_iff_forall_not_mem.2 fun r' hmem => ?_
  obtain ⟨-, _, rfl, rest, hafter, -⟩ := (reads_text s r r').1 hmem
  exact h ⟨rest, hafter.symm⟩

theorem first_one {c : Char} (hafter : r.cursor.after = c :: rest) (hc : k.admits c = true) :
    First (one k) r (r.pass [c] rest) := by
  refine (reads_one k).first trivial ⟨c, hc, rfl⟩ hafter ?_
  rintro _ ⟨d, -, rfl⟩ hbegins
  rw [hafter, List.cons_prefix_cons] at hbegins
  rw [hbegins.1]

theorem ends_seq_eq_nil (h : a.ends r = []) : (a ++ b).ends r = [] := by
  have hends : (a ++ b).ends r = (a.ends r).flatMap b.ends := rfl
  rw [hends, h, List.flatMap_nil]

/-- A repetition first reads all characters of its class that come next. -/
theorem first_star (hafter : r.cursor.after = front ++ rest)
    (hall : ∀ c ∈ front, k.admits c = true) (hstop : ∀ c ∈ rest.head?, k.admits c = false) :
    First (star k) r (r.pass front rest) := by
  obtain ⟨⟨before, after, index⟩, captures⟩ := r
  obtain rfl : after = front ++ rest := hafter
  simp only [First, star, ends, endsChar, Cursor.readExactly?, Option.map_none, List.head?_map,
    List.head?_reverse, Cursor.getLast?_nearest hall hstop, Option.map_some]
  rfl

theorem first_plus (hafter : r.cursor.after = front ++ rest) (hne : front ≠ [])
    (hall : ∀ c ∈ front, k.admits c = true) (hstop : ∀ c ∈ rest.head?, k.admits c = false) :
    First (plus k) r (r.pass front rest) := by
  obtain ⟨⟨before, after, index⟩, captures⟩ := r
  obtain rfl : after = front ++ rest := hafter
  obtain ⟨c, more, rfl⟩ := List.exists_cons_of_ne_nil hne
  have hc : k.admits c = true := hall c List.mem_cons_self
  have hlast : (Cursor.nearest k.admits (c :: before) (index + 1) (more ++ rest) none).getLast? =
      some ⟨more.reverse ++ c :: before, rest, index + 1 + more.length⟩ :=
    Cursor.getLast?_nearest (fun d hd => hall d (List.mem_cons_of_mem c hd)) hstop
  simp only [First, plus, ends, endsChar, List.cons_append, Cursor.readExactly?, hc, if_true,
    Option.map_none, List.head?_map, List.head?_reverse, hlast, Option.map_some]
  simp [Reading.pass, Nat.add_assoc, Nat.add_comm 1]

theorem stops_dropWhile {test : Char → Bool} {text : List Char} :
    ∀ c ∈ (text.dropWhile test).head?, test c = false := by
  intro c hc
  have hnot := List.head?_dropWhile_not test text
  rw [Option.mem_def.1 hc] at hnot
  simpa using hnot

/-- Behind a repetition that is read first stands no further character of its class. -/
theorem First.stops_star (h : First (star k) r r') :
    ∀ c ∈ r'.cursor.after.head?, k.admits c = false := by
  have hfirst : First (star k) r (r.pass (r.cursor.after.takeWhile k.admits)
      (r.cursor.after.dropWhile k.admits)) :=
    first_star List.takeWhile_append_dropWhile.symm (fun _ hc => List.mem_takeWhile_imp hc)
      stops_dropWhile
  rw [h.eq hfirst]
  exact stops_dropWhile

theorem First.stops_plus (h : First (plus k) r r') :
    ∀ c ∈ r'.cursor.after.head?, k.admits c = false := by
  obtain ⟨-, front, ⟨hne, hall⟩, rest, hafter, -⟩ := (reads_plus k r r').1 h.mem
  obtain ⟨c, more, rfl⟩ := List.exists_cons_of_ne_nil hne
  have htake : r.cursor.after.takeWhile k.admits ≠ [] := by
    rw [hafter, List.cons_append, List.takeWhile_cons, hall c List.mem_cons_self]
    exact List.cons_ne_nil _ _
  have hfirst : First (plus k) r (r.pass (r.cursor.after.takeWhile k.admits)
      (r.cursor.after.dropWhile k.admits)) :=
    first_plus List.takeWhile_append_dropWhile.symm htake (fun _ hc => List.mem_takeWhile_imp hc)
      stops_dropWhile
  rw [h.eq hfirst]
  exact stops_dropWhile

/-- A lazy repetition ends at the first place from which the rest of the pattern can be read. -/
theorem first_group_starLazy_seq (hafter : r.cursor.after = front ++ rest)
    (hall : ∀ c ∈ front, k.admits c = true)
    (hnone : ∀ less more, front = less ++ more → more ≠ [] →
      b.ends ((r.pass less (more ++ rest)).close index r.cursor) = [])
    (hb : First b ((r.pass front rest).close index r.cursor) r') :
    First (Pattern.group index (starLazy k) ++ b) r r' := by
  have hends : (Pattern.group index (starLazy k) ++ b).ends r =
      (Cursor.nearest k.admits r.cursor.before r.cursor.index r.cursor.after none).flatMap
        fun cursor => b.ends (({ r with cursor } : Reading).close index r.cursor) := by
    change ((Pattern.group index (starLazy k)).ends r).flatMap b.ends = _
    simp only [starLazy, ends, endsChar, Cursor.readExactly?, Option.map_none, List.map_map,
      List.flatMap_map, Function.comp_apply]
  rw [First, hends, hafter]
  exact Cursor.head?_flatMap_nearest hall hnone hb

/-- What a group read is what the run passed since the group began. -/
theorem text_pass (hafter : r.cursor.after = front ++ rest) :
    Capture.text ⟨index, r.cursor, (r.pass front rest).cursor⟩ = front := by
  have hlength : (r.pass front rest).cursor.index - r.cursor.index = front.length :=
    Nat.add_sub_cancel_left ..
  rw [Capture.text, Cursor.upTo, hlength, hafter, List.take_left]

/-! ## All matches -/

variable {before skipped : List Char} {free : Nat}

theorem matchesFrom_append (h : index + skipped.length ≤ free) :
    p.matchesFrom before index free (skipped ++ rest) =
      p.matchesFrom (skipped.reverse ++ before) (index + skipped.length) free rest := by
  induction skipped generalizing before index with
  | nil => rfl
  | cons c skipped ih =>
      rw [List.length_cons] at h
      have hlt : index < free := by omega
      rw [List.cons_append, matchesFrom, if_pos hlt, ih (by omega)]
      simp [Nat.add_assoc, Nat.add_comm 1]

theorem matchesAt_of_moved {c : Cursor} {m : Match} (hm : p.matchAt? c = some m)
    (hmoved : c.index < m.reading.cursor.index) : p.matchesAt c = [m] := by
  rw [matchesAt, hm]
  exact if_neg hmoved.ne'

/-- After a match the search goes on behind it. -/
theorem matchesFrom_of_first (hfree : free ≤ index) (hne : front ≠ [])
    (h : First p ⟨⟨before, front ++ rest, index⟩, []⟩ r)
    (hcursor : r.cursor = ⟨front.reverse ++ before, rest, index + front.length⟩) :
    p.matchesFrom before index free (front ++ rest) =
      ⟨⟨before, front ++ rest, index⟩, r⟩ ::
        p.matchesFrom (front.reverse ++ before) (index + front.length) (index + front.length)
          rest := by
  obtain ⟨c, more, rfl⟩ := List.exists_cons_of_ne_nil hne
  have hlast : r.cursor.index = index + (more.length + 1) := by rw [hcursor]; rfl
  have hat : p.matchesAt ⟨before, c :: (more ++ rest), index⟩ =
      [⟨⟨before, c :: (more ++ rest), index⟩, r⟩] :=
    matchesAt_of_moved (First.matchAt? h) (show index < r.cursor.index by omega)
  have hskip : p.matchesFrom (c :: before) (index + 1) (index + (more.length + 1)) (more ++ rest) =
      p.matchesFrom (more.reverse ++ c :: before) (index + 1 + more.length)
        (index + (more.length + 1)) rest := matchesFrom_append (by omega)
  rw [List.cons_append, matchesFrom, if_neg (by omega), hat]
  simp only [List.getLast_singleton, hlast, hskip, List.singleton_append]
  simp [Nat.add_assoc, Nat.add_comm 1]

theorem matchesAt_eq_nil {c : Cursor} (h : p.ends ⟨c, []⟩ = []) : p.matchesAt c = [] := by
  rw [matchesAt, matchAt?_eq, h]
  rfl

/-- There is no match where the pattern cannot be read from any place. -/
theorem matchesFrom_eq_nil
    (h : ∀ front more, rest = front ++ more →
      p.ends ⟨⟨front.reverse ++ before, more, index + front.length⟩, []⟩ = []) :
    p.matchesFrom before index free rest = [] := by
  induction rest generalizing before index with
  | nil =>
      have hat : p.matchesAt ⟨before, [], index⟩ = [] := matchesAt_eq_nil (h [] [] rfl)
      rw [matchesFrom, hat, ite_self]
  | cons c rest ih =>
      have hat : p.matchesAt ⟨before, c :: rest, index⟩ = [] :=
        matchesAt_eq_nil (h [] (c :: rest) rfl)
      have hrest : p.matchesFrom (c :: before) (index + 1) free rest = [] := by
        refine ih fun front more heq => ?_
        have hcons := h (c :: front) more (by rw [heq]; rfl)
        simpa [Nat.add_assoc, Nat.add_comm 1] using hcons
      simp only [matchesFrom, hat, hrest, ite_self]

/-- The only match is that at the start, if there is none behind it. -/
theorem allMatches_of_first (hne : front ≠ [])
    (h : First p ⟨Cursor.start (front ++ rest), []⟩ r)
    (hcursor : r.cursor = ⟨front.reverse ++ [], rest, 0 + front.length⟩)
    (hnone : ∀ skipped more, rest = skipped ++ more → ∀ c : Cursor, c.after = more →
      p.ends ⟨c, []⟩ = []) :
    p.allMatches (front ++ rest) = [⟨Cursor.start (front ++ rest), r⟩] := by
  have hrest : p.matchesFrom (front.reverse ++ []) (0 + front.length) (0 + front.length) rest = [] :=
    matchesFrom_eq_nil fun skipped more heq => hnone skipped more heq _ rfl
  rw [allMatches, matchesFrom_of_first le_rfl hne h hcursor, hrest]
  rfl

end Pattern

end EnvAudit
