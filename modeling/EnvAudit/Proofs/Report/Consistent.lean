import EnvAudit.Proofs.Report.Selection
import EnvAudit.Report.Document

/-!
# What a report document says twice

The summary of a document counts what its lists hold, and what the lists name is looked up among its results.
Whatever a report is built from, its document says the same in both places.
-/

namespace EnvAudit

namespace Json

/-- The value of a field of an object. -/
def field? (name : String) : Json → Option Json
  | obj fields => fields.lookup name
  | _ => none

/-- What the names of fields lead to, each inside the one before. -/
def at? (document : Json) (names : List String) : Option Json :=
  names.foldlM (fun inner name => inner.field? name) document

end Json

namespace Report

/-- What a report document holds. -/
structure DocumentParts where
  existing : List Json
  suggested : List Json
  /-- How many of the suggested variables have each severity. -/
  counts : List (String × Nat)
  results : List (String × Json)

/-- A document has the parts, and they agree with each other: its summary counts them, and each variable that
it lists is among its results. -/
structure Consistent (document : Json) (parts : DocumentParts) : Prop where
  existing : document.at? ["existing"] = some (.arr parts.existing)
  suggested : document.at? ["suggested"] = some (.arr parts.suggested)
  results : document.at? ["results"] = some (.obj parts.results)
  existing_counted : document.at? ["summary", "existing"] = some (.int parts.existing.length)
  suggested_counted : document.at? ["summary", "suggested"] = some (.int parts.suggested.length)
  counted : document.at? ["summary", "by_severity"] =
    some (.obj (parts.counts.map fun (severity, count) => (severity, .int count)))
  sum_counts : (parts.counts.map (·.2)).sum = parts.suggested.length
  named : ∀ item ∈ parts.existing ++ parts.suggested,
    ∃ name, item.at? ["name"] = some (.str name) ∧ name ∈ parts.results.map (·.1)
  results_nodup : (parts.results.map (·.1)).Nodup

variable {findings : Findings} {ignored : String → Bool} {threshold : Severity}

/-- A report lists nothing but names of its findings. -/
theorem mem_names_of_listed (h : findings.names.Nodup) {name : String}
    (hname : name ∈ (build findings ignored threshold).existing.map (·.name) ∨
      name ∈ (build findings ignored threshold).suggested.map (·.name)) : name ∈ findings.names := by
  rcases hname with hname | hname
  · rw [map_name_existing] at hname
    exact ((Findings.mem_namesWhere_iff h).1 hname).1
  · rw [suggested_build, ((List.mergeSort_perm _ inOrder).map _).mem_iff, map_name_selected] at hname
    exact ((Findings.mem_namesWhere_iff h).1 hname).1

theorem sum_count_summaryOrder (r : Report) : (summaryOrder.map r.count).sum = r.suggested.length := by
  have horder : summaryOrder = Severity.all.reverse := rfl
  rw [horder, List.map_reverse, List.sum_reverse, sum_count]

/-- The results of a document have the names of the findings, in order. -/
theorem exists_results (findings : Findings) :
    ∃ results, findingsFields findings = .obj results ∧ results.map (·.1) = findings.names.mergeSort := by
  refine ⟨_, rfl, ?_⟩
  rw [List.map_map, Findings.sorted, List.map_map, ← Findings.map_fst_sortedEntries]
  rfl

/-- The document of a report is consistent. -/
theorem consistent_document (h : findings.names.Nodup) (ignored : String → Bool) (threshold : Severity)
    (scanPath : String) (scannedFiles : Nat) :
    ∃ parts, Consistent ((build findings ignored threshold).document findings scanPath scannedFiles) parts := by
  have hlisted : ∀ name, (name ∈ (build findings ignored threshold).existing.map (·.name) ∨
      name ∈ (build findings ignored threshold).suggested.map (·.name)) → name ∈ findings.names :=
    fun _ => mem_names_of_listed h
  generalize build findings ignored threshold = report at hlisted ⊢
  obtain ⟨results, hresults, hnames⟩ := exists_results findings
  refine ⟨⟨_, _, summaryOrder.map fun severity => (severity.name, report.count severity), results⟩,
    { existing := rfl, suggested := rfl, results := congrArg some hresults, counted := rfl
      existing_counted := ?existing_counted, suggested_counted := ?suggested_counted
      sum_counts := ?sum_counts, named := ?named, results_nodup := ?results_nodup }⟩
  case existing_counted =>
    rw [List.length_map]
    rfl
  case suggested_counted =>
    rw [List.length_map]
    rfl
  case sum_counts =>
    rw [List.map_map, List.length_map]
    exact sum_count_summaryOrder report
  case named =>
    intro item hitem
    dsimp only at hitem ⊢
    rw [hnames]
    rcases List.mem_append.1 hitem with hitem | hitem
    · obtain ⟨v, hv, rfl⟩ := List.mem_map.1 hitem
      exact ⟨v.name, rfl, List.mem_mergeSort.2 (hlisted _ (.inl (List.mem_map_of_mem hv)))⟩
    · obtain ⟨v, hv, rfl⟩ := List.mem_map.1 hitem
      exact ⟨v.name, rfl, List.mem_mergeSort.2 (hlisted _ (.inr (List.mem_map_of_mem hv)))⟩
  case results_nodup =>
    dsimp only
    rw [hnames]
    exact (List.mergeSort_perm _ _).nodup_iff.2 h

end Report

end EnvAudit
