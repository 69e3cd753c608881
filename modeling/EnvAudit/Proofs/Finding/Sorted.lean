import EnvAudit.Proofs.Finding.View

/-!
# Findings in order

The severity of an entry is the greatest one of its suggestions.  The entries of findings come in
the strict order of their names, and so do the names of those entries that pass a test.
-/

namespace EnvAudit

namespace Entry

/-- The severities of an entry's suggestions, where a missing one counts as low. -/
def severities (e : Entry) : Set Severity :=
  {severity | ∃ s ∈ e.suggested, s.severity.getD .low = severity}

theorem low_le (severity : Severity) : Severity.low ≤ severity := Nat.zero_le _

theorem getD_higher? (a b : Option Severity) :
    (Severity.higher? a b).getD .low = max (a.getD .low) (b.getD .low) := by
  cases a <;> cases b <;> simp [Severity.higher?, low_le]

private theorem isGreatest_foldl_higher? (found : List Suggestion) (start : Option Severity) :
    IsGreatest
      (insert (start.getD .low) {severity | ∃ s ∈ found, s.severity.getD .low = severity})
      ((found.foldl (fun highest s => Severity.higher? highest s.severity) start).getD .low) := by
  induction found generalizing start with
  | nil => simp
  | cons s found ih =>
      rw [List.foldl_cons]
      obtain ⟨hmem, hupper⟩ := ih (Severity.higher? start s.severity)
      rw [getD_higher?] at hmem hupper
      have hmax := hupper (Set.mem_insert _ _)
      constructor
      · rcases Set.mem_insert_iff.1 hmem with heq | ⟨other, hother, hseverity⟩
        · rw [heq]
          rcases max_choice (start.getD .low) (s.severity.getD .low) with hleft | hright
          · exact Or.inl hleft
          · exact Or.inr ⟨s, List.mem_cons_self, hright.symm⟩
        · exact Or.inr ⟨other, List.mem_cons_of_mem s hother, hseverity⟩
      · rintro severity (rfl | ⟨other, hother, rfl⟩)
        · exact (le_max_left _ _).trans hmax
        · rcases List.mem_cons.1 hother with rfl | hother
          · exact (le_max_right _ _).trans hmax
          · exact hupper (Or.inr ⟨other, hother, rfl⟩)

/-- The severity of an entry is the greatest of its suggestions' severities. -/
theorem isGreatest_maxSeverity? {e : Entry} (h : e.suggested ≠ []) :
    IsGreatest e.severities (e.maxSeverity?.getD .low) := by
  obtain ⟨hmem, hupper⟩ := isGreatest_foldl_higher? e.suggested none
  refine ⟨?_, fun severity hseverity => hupper (Or.inr hseverity)⟩
  rcases Set.mem_insert_iff.1 hmem with hlow | hmem
  · -- Only the start of the fold is this low, but then so is every suggestion.
    obtain ⟨s, hs⟩ := List.exists_mem_of_ne_nil _ h
    refine ⟨s, hs, le_antisymm (hupper (Or.inr ⟨s, hs, rfl⟩)) ?_⟩
    rw [maxSeverity?, hlow]
    exact low_le _
  · exact hmem

end Entry

namespace Findings

theorem map_fst_sortedEntries (f : Findings) :
    f.sortedEntries.map (·.1) = f.names.mergeSort :=
  List.map_mergeSort fun _ _ _ _ => rfl

theorem sortedLT_names {f : Findings} (h : f.names.Nodup) :
    (f.sortedEntries.map (·.1)).SortedLT := by
  rw [map_fst_sortedEntries]
  have hnodup : f.names.mergeSort.Nodup := (List.mergeSort_perm f.names _).nodup_iff.2 h
  exact List.sortedLE_mergeSort.sortedLT_of_nodup hnodup

theorem mem_sortedEntries_iff {f : Findings} (h : f.names.Nodup) {name : String} {e : Entry} :
    (name, e) ∈ f.sortedEntries ↔ name ∈ f.names ∧ f.get name = e := by
  rw [sortedEntries, List.mem_mergeSort]
  constructor
  · intro hmem
    exact ⟨List.mem_map.2 ⟨_, hmem, rfl⟩, get_of_mem h hmem⟩
  · rintro ⟨hname, rfl⟩
    obtain ⟨⟨other, e⟩, hmem, rfl⟩ := List.mem_map.1 hname
    rwa [get_of_mem h hmem]

/-- The names of the entries that pass a test, in order. -/
def namesWhere (f : Findings) (test : String × Entry → Bool) : List String :=
  (f.sortedEntries.filter test).map (·.1)

theorem sortedLT_namesWhere {f : Findings} (h : f.names.Nodup) (test : String × Entry → Bool) :
    (f.namesWhere test).SortedLT :=
  ((sortedLT_names h).pairwise.sublist (List.filter_sublist.map _)).sortedLT

theorem mem_namesWhere_iff {f : Findings} (h : f.names.Nodup) {test : String × Entry → Bool}
    {name : String} :
    name ∈ f.namesWhere test ↔ name ∈ f.names ∧ test (name, f.get name) = true := by
  simp only [namesWhere, List.mem_map, List.mem_filter]
  constructor
  · rintro ⟨⟨other, e⟩, ⟨hmem, htest⟩, rfl⟩
    obtain ⟨hname, rfl⟩ := (mem_sortedEntries_iff h).1 hmem
    exact ⟨hname, htest⟩
  · rintro ⟨hname, htest⟩
    exact ⟨(name, f.get name), ⟨(mem_sortedEntries_iff h).2 ⟨hname, rfl⟩, htest⟩, rfl⟩

theorem mem_names_of_get_ne {f : Findings} {name : String} (h : f.get name ≠ {}) :
    name ∈ f.names := by
  by_contra hmem
  exact h (get_of_notMem hmem)

end Findings

end EnvAudit
