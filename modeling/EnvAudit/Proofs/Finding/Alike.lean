import EnvAudit.Finding
import Mathlib.Data.List.Forall2

/-!
# Findings that differ in files or values

Two scans or two reports are compared by a relation between their findings.  The names and severities
are the same, and so is the order; files and values correspond, each in its own way.  What records
findings keeps the correspondence, as long as different files correspond to different files.
-/

namespace EnvAudit

section Forall₂

open scoped Relator

variable {α β γ : Type*} {r : α → β → Prop} {as : List α} {bs : List β}

/-- What does not see the difference of two lists gives the same for both. -/
theorem map_eq_map_of_forall₂ {f : α → γ} {g : β → γ} (hfg : ∀ a b, r a b → f a = g b)
    (h : List.Forall₂ r as bs) : as.map f = bs.map g := by
  induction h with
  | nil => rfl
  | cons hab _ ih => rw [List.map_cons, List.map_cons, hfg _ _ hab, ih]

/-- Two tests that do not see the difference of two lists keep the same of both. -/
theorem forall₂_filter {p : α → Bool} {q : β → Bool} (hpq : ∀ a b, r a b → p a = q b)
    (h : List.Forall₂ r as bs) : List.Forall₂ r (as.filter p) (bs.filter q) :=
  List.rel_filter (fun a b hab => by dsimp only; rw [hpq a b hab]) h

/-- Two orders that do not see the difference of two lists bring them into the same order. -/
theorem forall₂_mergeSort {le : α → α → Bool} {le' : β → β → Bool}
    (hle : ∀ a b a' b', r a b → r a' b' → le a a' = le' b b') (h : List.Forall₂ r as bs) :
    List.Forall₂ r (as.mergeSort le) (bs.mergeSort le') := by
  -- Both are the two sides of one list of pairs, in order.
  obtain ⟨pairs, hpairs, rfl, rfl⟩ : ∃ pairs : List (α × β),
      (∀ p ∈ pairs, r p.1 p.2) ∧ pairs.map (·.1) = as ∧ pairs.map (·.2) = bs := by
    induction h with
    | nil => exact ⟨[], by simp⟩
    | cons hab _ ih =>
        obtain ⟨pairs, hpairs, hfst, hsnd⟩ := ih
        refine ⟨(_, _) :: pairs, List.forall_mem_cons.2 ⟨hab, hpairs⟩, ?_, ?_⟩
        · rw [List.map_cons, hfst]
        · rw [List.map_cons, hsnd]
  have hfst := List.map_mergeSort (r := fun p q : α × β => le p.1 q.1) (s := le) (f := (·.1))
    (l := pairs) fun _ _ _ _ => rfl
  have hsnd := List.map_mergeSort (r := fun p q : α × β => le p.1 q.1) (s := le') (f := (·.2))
    (l := pairs) fun p hp q hq => hle _ _ _ _ (hpairs p hp) (hpairs q hq)
  rw [← hfst, ← hsnd, List.forall₂_map_left_iff, List.forall₂_map_right_iff, List.forall₂_same]
  exact fun p hp => hpairs p (List.mem_mergeSort.1 hp)

/-- Two loops over corresponding lists keep a relation that each step keeps. -/
theorem rel_foldl_of_forall₂ {σ τ : Type*} {inv : σ → τ → Prop} {f : σ → α → σ} {g : τ → β → τ}
    (hstep : ∀ s t a b, inv s t → r a b → inv (f s a) (g t b)) (h : List.Forall₂ r as bs)
    {s : σ} {t : τ} (hst : inv s t) : inv (as.foldl f s) (bs.foldl g t) := by
  have hlift : (inv ⇒ r ⇒ inv) f g := fun s t hst a b hab => hstep s t a b hst hab
  exact List.rel_foldl hlift hst h

end Forall₂

/-- Whether one file may stand where another one stood. -/
abbrev FileRel := String → String → Prop

/-- Whether one value may stand where another one stood. -/
abbrev ValueRel := Option String → Option String → Prop

variable {ρ : FileRel} {r : ValueRel}

/-- The same suggestion but for its file and value. -/
structure Suggestion.Alike (ρ : FileRel) (r : ValueRel) (s t : Suggestion) : Prop where
  file : ρ s.file t.file
  severity : s.severity = t.severity
  value : r s.value t.value

/-- The same entry but for its files and values. -/
structure Entry.Alike (ρ : FileRel) (r : ValueRel) (e d : Entry) : Prop where
  usage : List.Forall₂ ρ e.usage d.usage
  suggested : List.Forall₂ (Suggestion.Alike ρ r) e.suggested d.suggested

/-- The same entries, under the same names, but for their files and values. -/
abbrev EntriesAlike (ρ : FileRel) (r : ValueRel) :
    List (String × Entry) → List (String × Entry) → Prop :=
  List.Forall₂ fun a b => a.1 = b.1 ∧ a.2.Alike ρ r b.2

/-- The same findings but for their files and values. -/
def Findings.Alike (ρ : FileRel) (r : ValueRel) (f g : Findings) : Prop :=
  EntriesAlike ρ r f.entries g.entries

theorem Entry.alike_empty : Entry.Alike ρ r {} {} := ⟨.nil, .nil⟩

theorem Findings.alike_empty : Findings.Alike ρ r .empty .empty := .nil

/-! ## Recording -/

section Recording

variable {e d e' d' : Entry} {f g f' g' : Findings} {s t : Suggestion} {a b : String}

/-- What is recorded for corresponding files combines to what corresponds. -/
theorem forall₂_record (hρ : Relator.BiUnique ρ) (hst : s.Alike ρ (· = ·) t)
    {known known' : List Suggestion} (h : List.Forall₂ (Suggestion.Alike ρ (· = ·)) known known') :
    List.Forall₂ (Suggestion.Alike ρ (· = ·)) (Entry.record s known) (Entry.record t known') := by
  induction h with
  | nil => exact .cons hst .nil
  | @cons old old' more more' hold hmore ih =>
      have hfile : old.file = s.file ↔ old'.file = t.file := by
        constructor
        · intro heq
          exact hρ.2 hold.file (heq ▸ hst.file)
        · intro heq
          exact hρ.1 hold.file (heq ▸ hst.file)
      rw [Entry.record, Entry.record]
      by_cases heq : old.file = s.file
      · rw [if_pos heq, if_pos (hfile.1 heq)]
        refine .cons ⟨hold.file, ?_, ?_⟩ hmore
        · exact congrArg₂ Severity.higher? hold.severity hst.severity
        · exact congrArg₂ Suggestion.lesser? hold.value hst.value
      · rw [if_neg heq, if_neg fun heq' => heq (hfile.2 heq')]
        exact .cons hold ih

namespace Entry.Alike

theorem addUsage (hρ : Relator.BiUnique ρ) (h : e.Alike ρ r d) (hab : ρ a b) :
    (e.addUsage a).Alike ρ r (d.addUsage b) := by
  have hmem : a ∈ e.usage ↔ b ∈ d.usage := List.rel_mem hρ hab h.usage
  rw [Entry.addUsage, Entry.addUsage, List.contains_eq_mem, List.contains_eq_mem]
  by_cases hknown : a ∈ e.usage
  · rw [if_pos (decide_eq_true hknown), if_pos (decide_eq_true (hmem.1 hknown))]
    exact h
  · have hunknown : b ∉ d.usage := fun hb => hknown (hmem.2 hb)
    rw [if_neg (by simpa using hknown), if_neg (by simpa using hunknown)]
    exact ⟨List.rel_append h.usage (.cons hab .nil), h.suggested⟩

theorem addSuggestion (hρ : Relator.BiUnique ρ) (h : e.Alike ρ (· = ·) d)
    (hst : s.Alike ρ (· = ·) t) : (e.addSuggestion s).Alike ρ (· = ·) (d.addSuggestion t) :=
  ⟨h.usage, forall₂_record hρ hst h.suggested⟩

theorem merge (hρ : Relator.BiUnique ρ) (h : e.Alike ρ (· = ·) d) (h' : e'.Alike ρ (· = ·) d') :
    (e.merge e').Alike ρ (· = ·) (d.merge d') := by
  have hused : (e'.usage.foldl Entry.addUsage e).Alike ρ (· = ·) (d'.usage.foldl Entry.addUsage d) :=
    rel_foldl_of_forall₂ (fun _ _ _ _ hed hab => hed.addUsage hρ hab) h'.usage h
  exact rel_foldl_of_forall₂ (fun _ _ _ _ hed hst => hed.addSuggestion hρ hst) h'.suggested hused

end Entry.Alike

namespace Findings.Alike

/-- A change of one entry keeps the correspondence if it keeps that of the entry. -/
theorem modify (h : f.Alike ρ r g) (name : String) {change change' : Entry → Entry}
    (hchange : ∀ e d, e.Alike ρ r d → (change e).Alike ρ r (change' d)) :
    (f.modify name change).Alike ρ r (g.modify name change') := by
  obtain ⟨entries⟩ := f
  obtain ⟨entries'⟩ := g
  have hentries : EntriesAlike ρ r entries entries' := h
  change EntriesAlike ρ r (alter change name entries) (alter change' name entries')
  clear h
  induction hentries with
  | nil => exact .cons ⟨rfl, hchange _ _ Entry.alike_empty⟩ .nil
  | @cons item item' more more' hitem hmore ih =>
      obtain ⟨known, e⟩ := item
      obtain ⟨known', d⟩ := item'
      obtain ⟨rfl, hed⟩ := hitem
      rw [alter, alter]
      by_cases heq : known = name
      · rw [if_pos heq, if_pos heq]
        exact .cons ⟨rfl, hchange _ _ hed⟩ hmore
      · rw [if_neg heq, if_neg heq]
        exact .cons ⟨rfl, hed⟩ ih

theorem addUsage (hρ : Relator.BiUnique ρ) (h : f.Alike ρ r g) (name : String) (hab : ρ a b) :
    (f.addUsage name a).Alike ρ r (g.addUsage name b) :=
  h.modify name fun _ _ hed => hed.addUsage hρ hab

theorem addSuggestion (hρ : Relator.BiUnique ρ) (h : f.Alike ρ (· = ·) g) (name : String)
    (hst : s.Alike ρ (· = ·) t) :
    (f.addSuggestion name s).Alike ρ (· = ·) (g.addSuggestion name t) :=
  h.modify name fun _ _ hed => hed.addSuggestion hρ hst

theorem merge (hρ : Relator.BiUnique ρ) (h : f.Alike ρ (· = ·) g) (h' : f'.Alike ρ (· = ·) g') :
    (f.merge f').Alike ρ (· = ·) (g.merge g') := by
  refine rel_foldl_of_forall₂ (fun f g item item' hfg hitem => ?_) h' h
  obtain ⟨name, e⟩ := item
  obtain ⟨name', d⟩ := item'
  obtain ⟨rfl, hed⟩ := hitem
  exact hfg.modify name fun _ _ hentry => hentry.merge hρ hed

end Findings.Alike

end Recording

/-! ## Other files -/

end EnvAudit
