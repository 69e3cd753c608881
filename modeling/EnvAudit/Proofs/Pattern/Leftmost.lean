import EnvAudit.Proofs.Pattern.Groups

/-!
# Matches begin as early as they can

A search tries one place after the other.  If a pattern can take in the character in front of a match
as well, the search must have been kept from that character, and so another match ends right there.
-/

namespace EnvAudit.Pattern

variable {p a b : Pattern} {k k' : CharClass} {c : Char} {m : Match}
variable {before after text : List Char} {index free : Nat}

theorem lt_index_of_mem_matchesAt (hp : 0 < p.ownWidth.least) {d : Cursor} (h : m ∈ p.matchesAt d) :
    d.index < m.reading.cursor.index := by
  obtain ⟨-, hfirst⟩ := first_of_mem_matchesAt hp h
  have hmoved : d.index + p.ownWidth.least ≤ m.reading.cursor.index :=
    advances_ends p _ _ hfirst.mem
  exact (Nat.lt_add_of_pos_right hp).trans_le hmoved

/-- No match begins before the place where the one in front of it has ended. -/
theorem free_le_of_mem_matchesFrom (hp : 0 < p.ownWidth.least)
    (h : m ∈ p.matchesFrom before index free after) : free ≤ m.start.index := by
  induction after generalizing before index free with
  | nil =>
      rw [matchesFrom] at h
      split at h
      · cases h
      · rename_i hfree
        rw [(first_of_mem_matchesAt hp h).1]
        exact Nat.not_lt.1 hfree
  | cons c after ih =>
      rw [matchesFrom] at h
      split at h
      · exact ih h
      · rename_i hfree
        have hfree := Nat.not_lt.1 hfree
        split at h
        · exact ih h
        · rename_i first more hmatches
          have hat : ∀ m ∈ first :: more, index < m.reading.cursor.index := by
            rw [← hmatches]
            exact fun m hm => lt_index_of_mem_matchesAt hp hm
          have hlast : (first :: more).getLast (by simp) ∈ first :: more := List.getLast_mem _
          have hmoved := hat _ hlast
          rcases List.mem_append.1 h with h | h
          · rw [(first_of_mem_matchesAt hp (hmatches ▸ h)).1]
            exact hfree
          · exact (hfree.trans hmoved.le).trans (ih h)

theorem ends_eq_nil_of_matchesAt {d : Cursor} (h : p.matchesAt d = []) : p.ends ⟨d, []⟩ = [] := by
  rw [matchesAt, matchAt?_eq] at h
  cases hends : p.ends ⟨d, []⟩ with
  | nil => rfl
  | cons r more =>
      rw [hends, List.head?_cons, Option.map_some] at h
      simp only at h
      split at h <;> cases h

/-- In front of a match the search began or stood where nothing could be read, or it was kept from
reading there. -/
theorem start_cases_of_mem_matchesFrom (hp : 0 < p.ownWidth.least)
    (h : m ∈ p.matchesFrom before index free after) :
    m.start = ⟨before, after, index⟩ ∨ m.start.index = free ∨
      (∃ c before after index, m.start = ⟨c :: before, after, index + 1⟩ ∧
        p.ends ⟨⟨before, c :: after, index⟩, []⟩ = []) ∨
      ∃ earlier ∈ p.matchesFrom before index free after,
        earlier.reading.cursor.index = m.start.index := by
  induction after generalizing before index free with
  | nil =>
      rw [matchesFrom] at h
      split at h
      · cases h
      · exact .inl (first_of_mem_matchesAt hp h).1
  | cons c after ih =>
      rw [matchesFrom] at h
      split at h
      · rename_i hfree
        have hsame : p.matchesFrom before index free (c :: after) =
            p.matchesFrom (c :: before) (index + 1) free after := by
          rw [matchesFrom, if_pos hfree]
        have hle := free_le_of_mem_matchesFrom hp h
        rw [hsame]
        rcases ih h with hstart | hrest
        · rw [hstart] at hle ⊢
          exact .inr (.inl (Nat.le_antisymm hfree hle))
        · exact .inr hrest
      · rename_i hfree
        split at h
        · rename_i hnone
          have hsame : p.matchesFrom before index free (c :: after) =
              p.matchesFrom (c :: before) (index + 1) free after := by
            rw [matchesFrom, if_neg hfree]
            simp only [hnone]
          rw [hsame]
          rcases ih h with hstart | hrest
          · exact .inr (.inr (.inl
              ⟨c, before, after, index, hstart, ends_eq_nil_of_matchesAt hnone⟩))
          · exact .inr hrest
        · rename_i first more hmatches
          have hsame : p.matchesFrom before index free (c :: after) = first :: more ++
              p.matchesFrom (c :: before) (index + 1)
                ((first :: more).getLast (by simp)).reading.cursor.index after := by
            rw [matchesFrom, if_neg hfree]
            simp only [hmatches]
          rw [hsame]
          have hat : ∀ m ∈ first :: more, index < m.reading.cursor.index := by
            rw [← hmatches]
            exact fun m hm => lt_index_of_mem_matchesAt hp hm
          have hlast : (first :: more).getLast (by simp) ∈ first :: more := List.getLast_mem _
          rcases List.mem_append.1 h with hm | hm
          · exact .inl (first_of_mem_matchesAt hp (hmatches ▸ hm)).1
          · have hmoved := hat _ hlast
            have hle := free_le_of_mem_matchesFrom hp hm
            rcases ih hm with hstart | hfree | hnone | ⟨earlier, hearlier, hindex⟩
            · refine .inr (.inr (.inr ⟨_, List.mem_append_left _ hlast, ?_⟩))
              rw [hstart] at hle ⊢
              exact Nat.le_antisymm hle hmoved
            · exact .inr (.inr (.inr ⟨_, List.mem_append_left _ hlast, hfree.symm⟩))
            · exact .inr (.inr (.inl hnone))
            · exact .inr (.inr (.inr ⟨earlier, List.mem_append_right _ hearlier, hindex⟩))

/-- A match stands at the start of the text, behind a place where the pattern cannot be read, or where
another match has ended. -/
theorem start_cases (hp : 0 < p.ownWidth.least) (h : m ∈ p.allMatches text) :
    m.start.before = [] ∨
      (∃ c before after index, m.start = ⟨c :: before, after, index + 1⟩ ∧
        p.ends ⟨⟨before, c :: after, index⟩, []⟩ = []) ∨
      ∃ earlier ∈ p.allMatches text, earlier.reading.cursor = m.start := by
  have hstart := (within_allMatches p text m h).start
  rcases start_cases_of_mem_matchesFrom hp h with heq | hzero | hnone | ⟨earlier, hearlier, hindex⟩
  · exact .inl (by rw [heq])
  · rw [hstart.index, List.length_eq_zero_iff] at hzero
    exact .inl hzero
  · exact .inr (.inl hnone)
  · have hend := (within_allMatches p text earlier hearlier).reading.cursor
    exact .inr (.inr ⟨earlier, hearlier, hend.eq_of_index hstart hindex⟩)

/-- What the pattern can read behind the character, it can read with the character in front. -/
def Absorbs (p : Pattern) (c : Char) : Prop :=
  ∀ before after index captures captures',
    places (p.ends ⟨⟨c :: before, after, index + 1⟩, captures⟩) ⊆
      places (p.ends ⟨⟨before, c :: after, index⟩, captures'⟩)

theorem Absorbs.group (h : Absorbs a c) (i : Nat) : Absorbs (group i a) c := by
  intro before after index captures captures'
  simp only [ends, places, List.map_map, Function.comp_def, Reading.close]
  exact h before after index captures captures'

theorem Absorbs.seq (ha : Absorbs a c) (hb : b.asksGroups = false) : Absorbs (a ++ b) c := by
  intro before after index captures captures' d hd
  obtain ⟨r', hr', rfl⟩ := List.mem_map.1 hd
  obtain ⟨mid, hmid, hend⟩ := List.mem_flatMap.1 hr'
  obtain ⟨mid', hmid', heq⟩ := List.mem_map.1
    (ha before after index captures captures' (List.mem_map_of_mem hmid))
  have hplace : r'.cursor ∈ places (b.ends mid) := List.mem_map_of_mem hend
  rw [← byPlace_ends hb mid' mid heq] at hplace
  obtain ⟨r'', hr'', hend'⟩ := List.mem_map.1 hplace
  exact List.mem_map.2 ⟨r'', List.mem_flatMap.2 ⟨mid', hmid', hr''⟩, hend'⟩

theorem absorbs_of_reads {A : Set (List Char)} (hp : ReadsAnywhere p A)
    (h : ∀ front ∈ A, c :: front ∈ A) : Absorbs p c := by
  intro before after index captures captures' d hd
  obtain ⟨r', hr', rfl⟩ := List.mem_map.1 hd
  obtain ⟨-, front, hfront, rest, hafter, rfl⟩ := (hp _ r').1 hr'
  have hafter : after = front ++ rest := hafter
  refine List.mem_map.2 ⟨_, (hp _ _).2 ⟨trivial, c :: front, h front hfront, rest, ?_, rfl⟩, ?_⟩
  · rw [hafter, List.cons_append]
  · simp [Reading.pass, Nat.add_assoc, Nat.add_comm 1]

theorem absorbs_plus (hc : k.admits c = true) : Absorbs (plus k) c :=
  absorbs_of_reads (reads_plus k) fun front ⟨_, hall⟩ =>
    ⟨List.cons_ne_nil c front, List.forall_mem_cons.2 ⟨hc, hall⟩⟩

theorem absorbs_one_star (hc : k.admits c = true) (h : ∀ d, k.admits d = true → k'.admits d = true) :
    Absorbs (one k ++ star k') c := by
  refine absorbs_of_reads ((reads_one k).seq (reads_star k')) ?_
  rintro _ ⟨_, ⟨d, hd, rfl⟩, more, hmore, rfl⟩
  exact ⟨[c], ⟨c, hc, rfl⟩, d :: more, List.forall_mem_cons.2 ⟨h d hd, hmore⟩, rfl⟩

/-- If a pattern can take in the character in front of a match, another match has ended there. -/
theorem exists_match_ends_at_start (hp : 0 < p.ownWidth.least) (hm : m ∈ p.allMatches text)
    (hc : c ∈ m.start.before.head?) (habsorbs : Absorbs p c) :
    ∃ earlier ∈ p.allMatches text, earlier.reading.cursor = m.start := by
  rcases start_cases hp hm with hnil | ⟨d, before, after, index, hstart, hnone⟩ | hended
  · rw [hnil] at hc
    cases hc
  · -- One place earlier the pattern could be read as well, so the search would have found it.
    have hmem := (first_of_mem_allMatches hp hm).mem
    rw [hstart] at hc hmem
    obtain rfl : d = c := Option.some.inj hc
    have hplace := habsorbs before after index [] [] (List.mem_map_of_mem hmem)
    rw [hnone] at hplace
    cases hplace
  · exact hended

end EnvAudit.Pattern
