import EnvAudit.Report
import EnvAudit.Proofs.Finding.Sorted

/-!
# What a report selects

A report is asked with a callback that says which names and files to leave out.  This module shows
which names it lists, that each is listed once and in order, and that a higher threshold cuts the
list off and changes nothing else.
-/

namespace EnvAudit

open Keyed

/-- Says which names and which files are ignored, without looking anything up. -/
structure IgnoreCallback where
  ignoresName : String → Bool
  ignoresFile : String → Bool

/-- Whether a name found in some files is left out; without a callback nothing is. -/
def leavesOut (callback : Option IgnoreCallback) (name : String) (files : List String) : Bool :=
  callback.any fun c => c.ignoresName name || files.any c.ignoresFile

namespace IgnoreTest

/-- The test that asks a callback. -/
def ofCallback (callback : Option IgnoreCallback) : IgnoreTest := fun name files =>
  .ok (leavesOut callback name files)

theorem ofCallback_none : ofCallback none = nothing := rfl

theorem ignoredNames_ofCallback (callback : Option IgnoreCallback) (files : Entry → List String)
    (entries : List (String × Entry)) :
    (ofCallback callback).ignoredNames files entries =
      .ok ((entries.filter fun item => leavesOut callback item.1 (files item.2)).map (·.1)) := by
  induction entries with
  | nil => rfl
  | cons item more ih =>
      rw [ignoredNames] at ih ⊢
      rw [List.filterMapM_cons, ih, List.filter_cons]
      cases h : leavesOut callback item.1 (files item.2) <;>
        simp [ofCallback, h, bind, Except.bind, pure, Except.pure]

end IgnoreTest

namespace SuggestedVariable

/-- The order of suggested variables: by severity, the highest first, and then by name. -/
def Before (a b : SuggestedVariable) : Prop :=
  b.severity < a.severity ∨ (a.severity = b.severity ∧ a.name < b.name)

theorem Before.asymm {a b : SuggestedVariable} (hab : a.Before b) : ¬ b.Before a := by
  rcases hab with hlt | ⟨heq, hname⟩
  · rintro (hlt' | ⟨heq', -⟩)
    · exact lt_asymm hlt hlt'
    · exact hlt.ne heq'
  · rintro (hlt' | ⟨-, hname'⟩)
    · exact hlt'.ne heq
    · exact lt_asymm hname hname'

end SuggestedVariable

namespace Report

open SuggestedVariable

theorem inOrder_iff {a b : SuggestedVariable} :
    inOrder a b = true ↔ b.severity < a.severity ∨ (a.severity = b.severity ∧ a.name ≤ b.name) := by
  rw [inOrder, Bool.or_eq_true, Bool.and_eq_true, decide_eq_true_iff, decide_eq_true_iff,
    beq_iff_eq, Severity.rank_injective.eq_iff, Severity.lt_iff_rank_lt]

theorem inOrder_trans (a b c : SuggestedVariable) (hab : inOrder a b = true)
    (hbc : inOrder b c = true) : inOrder a c = true := by
  rw [inOrder_iff] at *
  rcases hab with hab | ⟨hab, hnameab⟩
  · rcases hbc with hbc | ⟨hbc, -⟩
    · exact Or.inl (hbc.trans hab)
    · exact Or.inl (hbc ▸ hab)
  · rcases hbc with hbc | ⟨hbc, hnamebc⟩
    · exact Or.inl (hab ▸ hbc)
    · exact Or.inr ⟨hab.trans hbc, hnameab.trans hnamebc⟩

theorem inOrder_total (a b : SuggestedVariable) : (inOrder a b || inOrder b a) = true := by
  rw [Bool.or_eq_true, inOrder_iff, inOrder_iff]
  rcases lt_trichotomy a.severity b.severity with hlt | heq | hgt
  · exact Or.inr (Or.inl hlt)
  · rcases le_total a.name b.name with hname | hname
    · exact Or.inl (Or.inr ⟨heq, hname⟩)
    · exact Or.inr (Or.inr ⟨heq.symm, hname⟩)
  · exact Or.inl (Or.inl hgt)

variable {f : Findings} {ignored : String → Bool} {threshold : Severity}

theorem map_name_existing :
    (build f ignored threshold).existing.map (·.name) =
      f.namesWhere fun item => !item.2.usage.isEmpty := by
  unfold build Findings.namesWhere
  generalize f.sortedEntries = entries
  induction entries with
  | nil => rfl
  | cons item more ih =>
      cases h : item.2.usage.isEmpty <;> simp_all

/-- The suggested variables of a report before they are put in order. -/
def selected (f : Findings) (ignored : String → Bool) (threshold : Severity) :
    List SuggestedVariable :=
  ((f.sortedEntries.filter fun item => isCandidate item.2 && !ignored item.1).map fun item =>
    suggestionOf item.1 item.2).filter fun v => threshold ≤ v.severity

theorem suggested_build :
    (build f ignored threshold).suggested = (selected f ignored threshold).mergeSort inOrder := rfl

theorem map_name_selected :
    (selected f ignored threshold).map (·.name) = f.namesWhere fun item =>
      isCandidate item.2 && !ignored item.1 && threshold ≤ item.2.maxSeverity?.getD .low := by
  unfold selected Findings.namesWhere
  rw [List.filter_map, List.map_map, List.filter_filter]
  refine congrArg₂ List.map rfl (List.filter_congr fun item _ => ?_)
  exact Bool.and_comm _ _

theorem eq_suggestionOf_of_mem {v : SuggestedVariable} (h : f.names.Nodup)
    (hv : v ∈ selected f ignored threshold) : v = suggestionOf v.name (f.get v.name) := by
  obtain ⟨⟨name, e⟩, hitem, rfl⟩ := List.mem_map.1 (List.mem_filter.1 hv).1
  have hget := ((Findings.mem_sortedEntries_iff h).1 (List.mem_filter.1 hitem).1).2
  change suggestionOf name e = suggestionOf name (f.get name)
  rw [hget]

theorem nodup_map_name_selected (h : f.names.Nodup) :
    ((selected f ignored threshold).map (·.name)).Nodup := by
  rw [map_name_selected]
  exact (Findings.sortedLT_namesWhere h _).nodup

theorem nodup_map_name_suggested (h : f.names.Nodup) :
    ((build f ignored threshold).suggested.map (·.name)).Nodup :=
  (((List.mergeSort_perm _ inOrder).map _).nodup_iff).2 (nodup_map_name_selected h)

theorem pairwise_before_suggested (h : f.names.Nodup) :
    (build f ignored threshold).suggested.Pairwise Before := by
  have hsorted : (build f ignored threshold).suggested.Pairwise (inOrder · · = true) :=
    List.pairwise_mergeSort inOrder_trans inOrder_total _
  have hnames : (build f ignored threshold).suggested.Pairwise (·.name ≠ ·.name) :=
    List.pairwise_map.1 (nodup_map_name_suggested h)
  refine (hsorted.and hnames).imp fun hab => ?_
  rcases inOrder_iff.1 hab.1 with hlt | ⟨heq, hle⟩
  · exact Or.inl hlt
  · exact Or.inr ⟨heq, hle.lt_of_ne hab.2⟩

/-- A higher threshold keeps a beginning of the suggested variables. -/
theorem suggested_prefix (h : f.names.Nodup) {lower higher : Severity} (hle : lower ≤ higher) :
    (build f ignored higher).suggested <+: (build f ignored lower).suggested := by
  have hselected : selected f ignored higher =
      (selected f ignored lower).filter fun v => higher ≤ v.severity := by
    unfold selected
    rw [List.filter_filter]
    refine List.filter_congr fun v _ => ?_
    by_cases hv : higher ≤ v.severity
    · simp [hv, hle.trans hv]
    · simp [hv]
  have hperm : (build f ignored higher).suggested.Perm
      ((build f ignored lower).suggested.filter fun v => higher ≤ v.severity) := by
    rw [suggested_build, suggested_build, hselected]
    exact (List.mergeSort_perm _ _).trans ((List.mergeSort_perm _ _).filter _).symm
  have heq := hperm.eq_of_pairwise (fun a b _ _ hab hba => absurd hba hab.asymm)
    (pairwise_before_suggested h) ((pairwise_before_suggested h).filter _)
  rw [heq]
  refine filter_prefix_of_pairwise (pairwise_before_suggested h) fun a b hab hb => ?_
  have hseverity : b.severity ≤ a.severity := hab.elim le_of_lt fun h => h.1.ge
  simpa using (of_decide_eq_true hb).trans hseverity

/-- Every suggested variable has one of the severities. -/
theorem sum_count (r : Report) : (Severity.all.map r.count).sum = r.suggested.length := by
  obtain ⟨existing, suggested⟩ := r
  induction suggested with
  | nil => rfl
  | cons v suggested ih =>
      rw [List.length_cons, ← ih]
      simp only [Severity.all, List.map_cons, List.map_nil, List.sum_cons, List.sum_nil, count,
        List.filter_cons]
      cases v.severity <;> simp <;> omega

/-- The highest severity of a report in order is that of its first suggested variable. -/
theorem maxSeverity?_eq_head? {r : Report} (h : r.suggested.Pairwise Before) :
    r.maxSeverity? = r.suggested.head?.map (·.severity) := by
  obtain ⟨existing, suggested⟩ := r
  cases suggested with
  | nil => rfl
  | cons first rest =>
      obtain ⟨hfirst, -⟩ := List.pairwise_cons.1 h
      change rest.foldl (fun highest v => Severity.higher? highest (some v.severity))
        (some first.severity) = some first.severity
      clear h
      induction rest with
      | nil => rfl
      | cons v rest ih =>
          have hle : v.severity ≤ first.severity :=
            (hfirst v List.mem_cons_self).elim le_of_lt fun h => h.1.ge
          have hkeep : Severity.higher? (some first.severity) (some v.severity) =
              some first.severity := congrArg some (max_eq_left hle)
          rw [List.foldl_cons, hkeep]
          exact ih fun v hv => hfirst v (List.mem_cons_of_mem _ hv)

/-- What a callback and a threshold leave of the suggested names: those that nothing uses, that have
a suggestion, of which neither the name nor a file is ignored and of which the highest severity
reaches the threshold. -/
structure Suggests (f : Findings) (callback : Option IgnoreCallback) (threshold : Severity)
    (name : String) : Prop where
  unused : (f.get name).usage = []
  suggested : (f.get name).suggested ≠ []
  kept : ∀ c, callback = some c → c.ignoresName name = false ∧
    ∀ s ∈ (f.get name).suggested, c.ignoresFile s.file = false
  reached : ∃ severity, IsGreatest (f.get name).severities severity ∧ threshold ≤ severity

/-- A report that shows what its findings hold, all of it and nothing else. -/
structure Exact (r : Report) (f : Findings) (callback : Option IgnoreCallback)
    (threshold : Severity) : Prop where
  existing_sorted : (r.existing.map (·.name)).SortedLT
  mem_existing : ∀ name, name ∈ r.existing.map (·.name) ↔ (f.get name).usage ≠ []
  suggested_once : (r.suggested.map (·.name)).Nodup
  mem_suggested : ∀ name,
    name ∈ r.suggested.map (·.name) ↔ Suggests f callback threshold name
  suggested_ordered : r.suggested.Pairwise Before
  severity_greatest : ∀ v ∈ r.suggested, IsGreatest (f.get v.name).severities v.severity
  counts : (Severity.all.map r.count).sum = r.suggested.length
  maxSeverity : r.maxSeverity? = r.suggested.head?.map (·.severity)

/-- The names that a callback takes out of a report. -/
def namesLeftOut (f : Findings) (callback : Option IgnoreCallback) : List String :=
  f.namesWhere fun item => isCandidate item.2 && leavesOut callback item.1 (filesOf item.2)

theorem report_ofCallback (f : Findings) (callback : Option IgnoreCallback)
    (threshold : Severity) :
    (IgnoreTest.ofCallback callback).report f threshold =
      .ok (build f (namesLeftOut f callback).contains threshold) := by
  have hnames := IgnoreTest.ignoredNames_ofCallback callback filesOf
    (f.sortedEntries.filter fun item => isCandidate item.2)
  rw [List.filter_filter] at hnames
  unfold IgnoreTest.report
  dsimp only
  rw [hnames]
  simp only [bind, Except.bind, pure, Except.pure, namesLeftOut, Findings.namesWhere,
    Bool.and_comm]

theorem leavesOut_eq_false_iff {callback : Option IgnoreCallback} {name : String} {e : Entry} :
    leavesOut callback name (filesOf e) = false ↔
      ∀ c, callback = some c →
        c.ignoresName name = false ∧ ∀ s ∈ e.suggested, c.ignoresFile s.file = false := by
  cases callback with
  | none => simp [leavesOut]
  | some c => simp [leavesOut, filesOf]

theorem isCandidate_iff {e : Entry} :
    isCandidate e = true ↔ e.usage = [] ∧ e.suggested ≠ [] := by
  simp [isCandidate]

theorem exact_build {f : Findings} (h : f.names.Nodup) (callback : Option IgnoreCallback)
    (threshold : Severity) :
    Exact (build f (namesLeftOut f callback).contains threshold) f callback threshold where
  existing_sorted := by
    rw [map_name_existing]
    exact Findings.sortedLT_namesWhere h _
  mem_existing name := by
    rw [map_name_existing, Findings.mem_namesWhere_iff h]
    constructor
    · rintro ⟨-, hused⟩
      simpa using hused
    · intro hused
      refine ⟨Findings.mem_names_of_get_ne fun hempty => hused ?_, by simpa using hused⟩
      rw [hempty]
  suggested_once := nodup_map_name_suggested h
  mem_suggested name := by
    have hperm := (List.mergeSort_perm
      (selected f (namesLeftOut f callback).contains threshold) inOrder).map (·.name)
    rw [suggested_build, hperm.mem_iff, map_name_selected, Findings.mem_namesWhere_iff h]
    simp only [Bool.and_eq_true, Bool.not_eq_true', decide_eq_true_iff, List.contains_eq_mem,
      decide_eq_false_iff_not, isCandidate_iff]
    constructor
    · rintro ⟨hname, ⟨⟨hunused, hsuggested⟩, hkept⟩, hreached⟩
      refine ⟨hunused, hsuggested, leavesOut_eq_false_iff.1 ?_, _,
        Entry.isGreatest_maxSeverity? hsuggested, hreached⟩
      by_contra hleft
      refine hkept ((Findings.mem_namesWhere_iff h).2 ⟨hname, ?_⟩)
      rw [Bool.and_eq_true, isCandidate_iff]
      exact ⟨⟨hunused, hsuggested⟩, eq_true_of_ne_false hleft⟩
    · rintro ⟨hunused, hsuggested, hkept, severity, hgreatest, hreached⟩
      have hname : name ∈ f.names :=
        Findings.mem_names_of_get_ne fun hempty => hsuggested (by rw [hempty])
      refine ⟨hname, ⟨⟨hunused, hsuggested⟩, fun hleft => ?_⟩, ?_⟩
      · have hout := ((Findings.mem_namesWhere_iff h).1 hleft).2
        rw [Bool.and_eq_true, leavesOut_eq_false_iff.2 hkept] at hout
        exact Bool.false_ne_true hout.2
      · rwa [(Entry.isGreatest_maxSeverity? hsuggested).unique hgreatest]
  suggested_ordered := pairwise_before_suggested h
  severity_greatest v hv := by
    have hmem : v ∈ selected f (namesLeftOut f callback).contains threshold :=
      List.mem_mergeSort.1 hv
    have hcandidate : isCandidate (f.get v.name) = true := by
      have hname := List.mem_map_of_mem (f := (·.name)) hmem
      rw [map_name_selected, Findings.mem_namesWhere_iff h, Bool.and_eq_true,
        Bool.and_eq_true] at hname
      exact hname.2.1.1
    rw [eq_suggestionOf_of_mem h hmem]
    exact Entry.isGreatest_maxSeverity? (isCandidate_iff.1 hcandidate).2
  counts := sum_count _
  maxSeverity := maxSeverity?_eq_head? (pairwise_before_suggested h)

/-- A report shows exactly what its findings hold.  The existing variables depend on nothing else,
and a higher threshold leaves a beginning of the suggested ones. -/
theorem report_exact (f : Findings) (h : f.names.Nodup) (callback : Option IgnoreCallback) :
    (∀ threshold, ∃ r, (IgnoreTest.ofCallback callback).report f threshold = .ok r ∧
        Exact r f callback threshold) ∧
      (∀ callback' threshold threshold' r r',
        (IgnoreTest.ofCallback callback).report f threshold = .ok r →
          (IgnoreTest.ofCallback callback').report f threshold' = .ok r' →
            r.existing = r'.existing) ∧
      ∀ lower higher r r', lower ≤ higher →
        (IgnoreTest.ofCallback callback).report f lower = .ok r →
          (IgnoreTest.ofCallback callback).report f higher = .ok r' →
            r'.suggested <+: r.suggested := by
  refine ⟨fun threshold => ?_, ?_, ?_⟩
  · exact ⟨_, report_ofCallback f callback threshold, exact_build h callback threshold⟩
  · intro callback' threshold threshold' r r' hr hr'
    rw [report_ofCallback, Except.ok.injEq] at hr hr'
    rw [← hr, ← hr']
    rfl
  · intro lower higher r r' hle hr hr'
    rw [report_ofCallback, Except.ok.injEq] at hr hr'
    rw [← hr, ← hr']
    exact suggested_prefix h hle

/-- Findings with a used name and a name that is suggested in two files. -/
def sampleFindings : Findings :=
  ⟨[("HOST", { usage := ["a.js"], suggested := [⟨"b.js", none, some .low⟩] }),
    ("token", { suggested := [⟨"b.js", some "x", none⟩, ⟨"a.js", none, some .high⟩] })]⟩

theorem report_exact_sampleFindings :
    sampleFindings.names.Nodup ∧
      ∃ r, (IgnoreTest.ofCallback (some ⟨(· == "key"), (· == "c.js")⟩)).report sampleFindings
          .medium = .ok r ∧
        Exact r sampleFindings (some ⟨(· == "key"), (· == "c.js")⟩) .medium :=
  have h : sampleFindings.names.Nodup := by decide
  ⟨h, (report_exact sampleFindings h (some ⟨(· == "key"), (· == "c.js")⟩)).1 .medium⟩

end Report

end EnvAudit
