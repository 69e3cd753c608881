import EnvAudit.Proofs.Pattern.Reads

/-!
# Where a pattern occurs

A pattern that is bound to the start of a text occurs in it if it can be read there.  Looking ahead for a
text behind any characters is asking whether that text stands anywhere in what comes next.
-/

namespace EnvAudit

/-- One of the texts stands somewhere in the content. -/
def HoldsText (A : Set (List Char)) (content : List Char) : Prop :=
  ∃ front, ∃ read ∈ A, ∃ rest, content = front ++ (read ++ rest)

/-- Where no text of the set overlaps the front of a content, it stands behind that front. -/
theorem holdsText_append_iff {A : Set (List Char)} {front rest : List Char} {last : Char}
    (hlast : ∀ read ∈ A, last ∉ read) (hletter : ∀ read ∈ A, ∃ c ∈ read, c ∉ front ++ [last]) :
    HoldsText A (front ++ [last] ++ rest) ↔ HoldsText A rest := by
  constructor
  · rintro ⟨before, read, hread, after, heq⟩
    rcases List.append_eq_append_iff.1 heq with ⟨inside, -, hrest⟩ | ⟨inside, hfront, hinside⟩
    · exact ⟨inside, read, hread, after, hrest⟩
    rcases List.eq_nil_or_concat' inside with rfl | ⟨more, d, rfl⟩
    · exact ⟨[], read, hread, after, hinside.symm⟩
    have hd : d = last := by
      rw [← List.append_assoc] at hfront
      exact (List.cons.inj (List.append_inj' hfront rfl).2).1.symm
    -- What begins in the front would hold its last character, or nothing but characters of it.
    exfalso
    rcases List.append_eq_append_iff.1 hinside with ⟨tail, hread', -⟩ | ⟨tail, hread', -⟩
    · obtain ⟨c, hc, hnot⟩ := hletter read hread
      apply hnot
      rw [hfront, hread']
      exact List.mem_append_right _ (List.mem_append_left _ hc)
    · apply hlast read hread
      rw [hread', hd]
      simp
  · rintro ⟨before, read, hread, after, rfl⟩
    exact ⟨front ++ [last] ++ before, read, hread, after, (List.append_assoc _ _ _).symm⟩

namespace Pattern

variable {S : Cursor → Prop} {P : Cursor → Prop} {a b p : Pattern} {A : Set (List Char)} {k : CharClass}
  {r r' : Reading} {content : List Char}

theorem ReadsAnywhere.occursIn_iff (hp : ReadsAnywhere p A) (content : List Char) :
    p.occursIn content = true ↔ HoldsText A content := by
  rw [Reads.occursIn_iff hp, HoldsText]
  simp only [and_true]

theorem Reads.ends_ne_nil_iff (hp : Reads S p A) :
    p.ends r ≠ [] ↔ S r.cursor ∧ ∃ front ∈ A, front <+: r.cursor.after := by
  constructor
  · intro hne
    obtain ⟨r', hmem⟩ := List.exists_mem_of_ne_nil _ hne
    obtain ⟨hplace, front, hfront, rest, hafter, -⟩ := (hp r r').1 hmem
    exact ⟨hplace, front, hfront, rest, hafter.symm⟩
  · rintro ⟨hplace, front, hfront, rest, hafter⟩
    exact List.ne_nil_of_mem ((hp r _).2 ⟨hplace, front, hfront, rest, hafter.symm, rfl⟩)

theorem Reads.ends_seq_ne_nil_iff (ha : Reads S a A) :
    (a ++ b).ends r ≠ [] ↔ S r.cursor ∧ ∃ front ∈ A, ∃ rest, r.cursor.after = front ++ rest ∧
      b.ends (r.pass front rest) ≠ [] := by
  have hflat : (a ++ b).ends r ≠ [] ↔ ∃ mid ∈ a.ends r, b.ends mid ≠ [] := by
    change (a.ends r).flatMap b.ends ≠ [] ↔ _
    simp [List.flatMap_eq_nil_iff]
  rw [hflat]
  constructor
  · rintro ⟨mid, hmid, hne⟩
    obtain ⟨hplace, front, hfront, rest, hafter, rfl⟩ := (ha r mid).1 hmid
    exact ⟨hplace, front, hfront, rest, hafter, hne⟩
  · rintro ⟨hplace, front, hfront, rest, hafter, hne⟩
    exact ⟨_, (ha r _).2 ⟨hplace, front, hfront, rest, hafter, rfl⟩, hne⟩

/-- Behind any characters a pattern can be read if one of its texts stands anywhere ahead. -/
theorem ReadsAnywhere.ends_star_seq_ne_nil_iff (hk : ∀ c, k.admits c = true) (hp : ReadsAnywhere p A) :
    (star k ++ p).ends r ≠ [] ↔ HoldsText A r.cursor.after := by
  rw [(reads_star k).ends_seq_ne_nil_iff]
  simp only [true_and, hp.ends_ne_nil_iff, HoldsText, Reading.pass]
  constructor
  · rintro ⟨front, -, after, hafter, read, hread, rest, rfl⟩
    exact ⟨front, read, hread, rest, hafter⟩
  · rintro ⟨front, read, hread, rest, hafter⟩
    exact ⟨front, fun c _ => hk c, _, hafter, read, hread, rest, rfl⟩

/-- What comes next is looked at, and nothing of it is read. -/
theorem reads_ahead_false (hp : ∀ r, p.ends r ≠ [] ↔ P r.cursor) :
    Reads (fun c => ¬ P c) (ahead false p) {[]} := by
  intro r r'
  have hplace : ¬ P r.cursor ↔ p.ends r = [] := by rw [← hp r, not_not]
  simp only [hplace, ends]
  cases p.ends r <;> simp [Reading.pass]

theorem isSome_matchAt?_start_iff :
    (p.matchAt? (.start content)).isSome = true ↔ p.ends ⟨.start content, []⟩ ≠ [] := by
  rw [matchAt?_eq, Option.isSome_map, List.isSome_head?]

theorem occursIn_textStart_iff :
    (edge .textStart ++ p).occursIn content = true ↔ p.ends ⟨.start content, []⟩ ≠ [] := by
  rw [occursIn, find?, findFrom?_isSome_iff]
  simp only [(reads_edge .textStart).ends_seq_ne_nil_iff, Set.mem_singleton_iff, exists_eq_left,
    List.nil_append, List.append_nil, Nat.zero_add, exists_eq_left', Cursor.isAt, List.isEmpty_iff,
    List.reverse_eq_nil_iff]
  constructor
  · rintro ⟨_, rest, rfl, rfl, hne⟩
    exact hne
  · exact fun hne => ⟨[], content, rfl, rfl, hne⟩

theorem ends_lastLineEnd_ne_nil_iff :
    (edge .lastLineEnd).ends r ≠ [] ↔ r.cursor.after = [] ∨ r.cursor.after = ['\n'] := by
  rw [(reads_edge .lastLineEnd).ends_ne_nil_iff]
  simp [Cursor.isAt]

/-- A pattern for whole texts occurs in what it reads, and in that with a line end behind it. -/
theorem ReadsAnywhere.occursIn_whole_iff (hp : ReadsAnywhere p A) :
    (edge .textStart ++ (p ++ edge .lastLineEnd)).occursIn content = true ↔
      content ∈ A ∨ ∃ front ∈ A, content = front ++ ['\n'] := by
  rw [occursIn_textStart_iff, hp.ends_seq_ne_nil_iff]
  simp only [ends_lastLineEnd_ne_nil_iff, true_and, Reading.pass, Cursor.start]
  constructor
  · rintro ⟨front, hfront, _, rfl, rfl | rfl⟩
    · exact .inl (by rwa [List.append_nil])
    · exact .inr ⟨front, hfront, rfl⟩
  · rintro (hcontent | ⟨front, hfront, rfl⟩)
    · exact ⟨content, hcontent, [], (List.append_nil _).symm, .inl rfl⟩
    · exact ⟨front, hfront, ['\n'], rfl, .inr rfl⟩

end Pattern

end EnvAudit
