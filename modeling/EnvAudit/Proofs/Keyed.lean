import Mathlib

/-!
# Lists with keys

Lists whose elements have distinct keys: adding a key that is new, looking an element up by its key,
and sorting by the key.
-/

namespace EnvAudit.Keyed

variable {A : Type*} {K : Type*}

section Adding

variable [DecidableEq K]

/-- The keys with one more at the end, unless it is among them. -/
def appendNew (known : List K) (new : K) : List K := if new ∈ known then known else known ++ [new]

theorem appendNew_of_mem {known : List K} {new : K} (h : new ∈ known) :
    appendNew known new = known := if_pos h

theorem appendNew_of_notMem {known : List K} {new : K} (h : new ∉ known) :
    appendNew known new = known ++ [new] := if_neg h

theorem appendNew_cons_of_ne {first new : K} (hne : first ≠ new) (known : List K) :
    appendNew (first :: known) new = first :: appendNew known new := by
  by_cases hmem : new ∈ known
  · rw [appendNew_of_mem hmem, appendNew_of_mem (List.mem_cons_of_mem first hmem)]
  · rw [appendNew_of_notMem hmem, List.cons_append.symm]
    exact appendNew_of_notMem (List.not_mem_cons_of_ne_of_not_mem (Ne.symm hne) hmem)

@[simp]
theorem mem_appendNew {known : List K} {new key : K} :
    key ∈ appendNew known new ↔ key ∈ known ∨ key = new := by
  by_cases hmem : new ∈ known
  · rw [appendNew_of_mem hmem]
    exact ⟨Or.inl, fun h => h.elim id fun heq => heq ▸ hmem⟩
  · rw [appendNew_of_notMem hmem, List.mem_append, List.mem_singleton]

theorem nodup_appendNew {known : List K} (h : known.Nodup) (new : K) :
    (appendNew known new).Nodup := by
  by_cases hmem : new ∈ known
  · rwa [appendNew_of_mem hmem]
  · rw [appendNew_of_notMem hmem, ← List.concat_eq_append]
    exact h.concat hmem

end Adding

/-- With distinct keys, an element is the one found by its key. -/
theorem find?_eq_some_iff [BEq K] [LawfulBEq K] {key : A → K} {items : List A}
    (h : (items.map key).Nodup) {k : K} {a : A} :
    items.find? (key · == k) = some a ↔ a ∈ items ∧ key a = k := by
  constructor
  · intro hfind
    have hkey := List.find?_some hfind
    exact ⟨List.mem_of_find?_eq_some hfind, beq_iff_eq.1 hkey⟩
  · rintro ⟨hmem, rfl⟩
    obtain ⟨found, hfound⟩ := Option.isSome_iff_exists.1
      (List.find?_isSome (p := (key · == key a)).2 ⟨a, hmem, beq_self_eq_true _⟩)
    have hkey := List.find?_some hfound
    have heq : found = a :=
      List.inj_on_of_nodup_map h (List.mem_of_find?_eq_some hfound) hmem (beq_iff_eq.1 hkey)
    exact heq ▸ hfound

section Sorting

variable [LinearOrder K]

/-- A list without repetitions sorts to the sorted set of its members. -/
theorem mergeSort_eq_sort {keys : List K} (h : keys.Nodup) {members : Finset K}
    (hmem : ∀ k, k ∈ keys ↔ k ∈ members) : keys.mergeSort = members.sort := by
  have hset : keys.toFinset = members := by
    ext k
    rw [List.mem_toFinset]
    exact hmem k
  have hperm : keys.mergeSort.Perm members.sort := by
    refine (List.mergeSort_perm keys _).trans ?_
    refine (List.perm_ext_iff_of_nodup h (Finset.sort_nodup _ _)).2 fun k => ?_
    rw [Finset.mem_sort]
    exact hmem k
  exact hperm.eq_of_sortedLE List.sortedLE_mergeSort
    (List.Pairwise.sortedLE (Finset.pairwise_sort _ _))

/-- Sorting by distinct keys sorts the keys; `find` gives the element of each key. -/
theorem mergeSort_by_key {key : A → K} {items : List A} (h : (items.map key).Nodup)
    {find : K → A} (hfind : ∀ a ∈ items, find (key a) = a) {members : Finset K}
    (hmem : ∀ k, k ∈ items.map key ↔ k ∈ members) :
    items.mergeSort (fun a b => key a ≤ key b) = members.sort.map find := by
  have hkeys : (items.mergeSort (fun a b => key a ≤ key b)).map key = members.sort := by
    rw [List.map_mergeSort (s := fun a b => decide (a ≤ b)) (fun _ _ _ _ => rfl)]
    exact mergeSort_eq_sort h hmem
  have hitems : ∀ a ∈ items.mergeSort (fun a b => key a ≤ key b), (find ∘ key) a = id a := by
    intro a ha
    exact hfind a (List.mem_mergeSort.1 ha)
  calc
    items.mergeSort (fun a b => key a ≤ key b) =
        (items.mergeSort (fun a b => key a ≤ key b)).map id := (List.map_id _).symm
    _ = (items.mergeSort (fun a b => key a ≤ key b)).map (find ∘ key) :=
      (List.map_congr_left hitems).symm
    _ = _ := by
      rw [← List.map_map]
      exact congrArg (List.map find) hkeys

end Sorting

/-- A test that holds of everything in front of what it holds of keeps a beginning of the list. -/
theorem filter_prefix_of_pairwise {r : A → A → Prop} {test : A → Bool} {items : List A}
    (h : items.Pairwise r) (htest : ∀ a b, r a b → test b = true → test a = true) :
    items.filter test <+: items := by
  induction items with
  | nil => exact List.prefix_rfl
  | cons a items ih =>
      obtain ⟨ha, hitems⟩ := List.pairwise_cons.1 h
      by_cases hpass : test a = true
      · rw [List.filter_cons_of_pos hpass]
        exact (List.prefix_cons_inj a).2 (ih hitems)
      · have hnone : (a :: items).filter test = [] := by
          refine List.filter_eq_nil_iff.2 fun b hb hb' => ?_
          rcases List.mem_cons.1 hb with rfl | hb
          · exact hpass hb'
          · exact hpass (htest a b (ha b hb) hb')
        rw [hnone]
        exact List.nil_prefix

end EnvAudit.Keyed
