import EnvAudit.Proofs.Config.Ignored
import EnvAudit.Proofs.Finding.Alike
import EnvAudit.Libraries
import EnvAudit.Proofs.Report.Selection
import EnvAudit.Report.Terminal

/-!
# Values on a terminal

Findings that differ in their values only are told apart by a terminal report as far as the masks of
the values are, and not at all where no values are shown.  So nothing of a value but its length and the
ends of a long one can be seen.
-/

namespace EnvAudit

/-! ## Findings that differ in values -/

/-- The same suggested variable but for its value. -/
structure SuggestedVariable.Alike (r : ValueRel) (v w : SuggestedVariable) : Prop where
  name : v.name = w.name
  severity : v.severity = w.severity
  files : v.files = w.files
  value : r v.value w.value

/-- The same report but for its values. -/
structure Report.Alike (r : ValueRel) (a b : Report) : Prop where
  existing : a.existing = b.existing
  suggested : List.Forall₂ (SuggestedVariable.Alike r) a.suggested b.suggested

variable {r : ValueRel} {f g : Findings} {e d : Entry}

namespace Entry.Alike

theorem usage_eq (h : e.Alike (· = ·) r d) : e.usage = d.usage := by
  have husage := h.usage
  rwa [List.forall₂_eq_eq_eq] at husage

theorem map_file (h : e.Alike (· = ·) r d) : e.suggested.map (·.file) = d.suggested.map (·.file) :=
  map_eq_map_of_forall₂ (fun _ _ hst => hst.file) h.suggested

theorem map_severity (h : e.Alike (· = ·) r d) :
    e.suggested.map (·.severity) = d.suggested.map (·.severity) :=
  map_eq_map_of_forall₂ (fun _ _ hst => hst.severity) h.suggested

theorem filesOf_eq (h : e.Alike (· = ·) r d) : Report.filesOf e = Report.filesOf d := by
  rw [Report.filesOf, Report.filesOf, h.map_file]

theorem maxSeverity?_eq (h : e.Alike (· = ·) r d) : e.maxSeverity? = d.maxSeverity? := by
  have hfold (x : Entry) : x.maxSeverity? =
      (x.suggested.map (·.severity)).foldl Severity.higher? none := by
    rw [List.foldl_map, maxSeverity?]
  rw [hfold e, hfold d, h.map_severity]

theorem isCandidate_eq (h : e.Alike (· = ·) r d) : Report.isCandidate e = Report.isCandidate d := by
  have hempty : e.suggested.isEmpty = d.suggested.isEmpty := by
    rw [← List.isEmpty_map (f := (·.file)), h.map_file, List.isEmpty_map]
  rw [Report.isCandidate, Report.isCandidate, h.usage_eq, hempty]

theorem suggestionOf (h : e.Alike (· = ·) r d) (hvalue : r e.value? d.value?) (name : String) :
    (Report.suggestionOf name e).Alike r (Report.suggestionOf name d) where
  name := rfl
  severity := congrArg (·.getD .low) h.maxSeverity?_eq
  files := h.filesOf_eq
  value := hvalue

end Entry.Alike

namespace Findings.Alike

theorem sortedEntries (h : f.Alike (· = ·) r g) : EntriesAlike (· = ·) r f.sortedEntries g.sortedEntries :=
  forall₂_mergeSort (fun _ _ _ _ hab hab' => by rw [hab.1, hab'.1]) h

/-- The entries that could be suggested differ in values only. -/
theorem candidates (h : f.Alike (· = ·) r g) :
    EntriesAlike (· = ·) r (f.sortedEntries.filter fun item => Report.isCandidate item.2)
      (g.sortedEntries.filter fun item => Report.isCandidate item.2) :=
  forall₂_filter (fun _ _ hab => hab.2.isCandidate_eq) h.sortedEntries

/-- No test of names and files sees a value. -/
theorem ignoredNames_eq (test : IgnoreTest) {entries entries' : List (String × Entry)}
    (h : EntriesAlike (· = ·) r entries entries') :
    test.ignoredNames Report.filesOf entries = test.ignoredNames Report.filesOf entries' := by
  induction h with
  | nil => rfl
  | @cons a b _ _ hab _ ih =>
      obtain ⟨name, e⟩ := a
      obtain ⟨name', d⟩ := b
      obtain ⟨rfl, hed⟩ := hab
      rw [IgnoreTest.ignoredNames_cons, IgnoreTest.ignoredNames_cons, ih, hed.filesOf_eq]

/-- Findings that differ in values have reports that do, if the values shown may stand for one
another. -/
theorem build (h : f.Alike (· = ·) r g) (hvalue : ∀ e d : Entry, e.Alike (· = ·) r d → r e.value? d.value?)
    (ignored : String → Bool) (threshold : Severity) :
    (Report.build f ignored threshold).Alike r (Report.build g ignored threshold) where
  existing := by
    unfold Report.build
    dsimp only
    have hentries := h.sortedEntries
    generalize f.sortedEntries = entries, g.sortedEntries = entries' at hentries
    induction hentries with
    | nil => rfl
    | cons hab _ ih => simp only [List.filterMap_cons, hab.1, hab.2.usage_eq, ih]
  suggested := by
    have hshown : List.Forall₂ (SuggestedVariable.Alike r) (Report.selected f ignored threshold)
        (Report.selected g ignored threshold) := by
      refine forall₂_filter (fun v w hvw => by rw [hvw.severity]) ?_
      refine List.rel_map (fun a b hab => ?_) (forall₂_filter (fun a b hab => ?_) h.sortedEntries)
      · rw [hab.1]
        exact hab.2.suggestionOf (hvalue _ _ hab.2) b.1
      · rw [hab.1, hab.2.isCandidate_eq]
    exact forall₂_mergeSort
      (fun v w v' w' hv hv' => by simp only [Report.inOrder, hv.severity, hv'.severity, hv.name,
        hv'.name]) hshown

end Findings.Alike

/-! ## Masks -/

/-- The same value, or two values of one length that are not empty and, where they are long, begin
and end alike. -/
inductive SameMask : ValueRel
  | same (value : Option String) : SameMask value value
  | hidden {v w : String} (nonempty : v ≠ "") (length : v.length = w.length)
      (ends : 8 < v.length → v.toList.take 4 = w.toList.take 4 ∧
        v.toList.drop (v.length - 4) = w.toList.drop (w.length - 4)) : SameMask (some v) (some w)

namespace SameMask

variable {a b a' b' : Option String}

/-- Values that look the same behind their masks are both empty, or none is. -/
theorem ne_empty {v w : String} (h : SameMask (some v) (some w)) : (v != "") = (w != "") := by
  cases h with
  | same => rfl
  | hidden nonempty length =>
      have hw : w ≠ "" := by
        rintro rfl
        exact nonempty (String.length_eq_zero_iff.1 length)
      rw [bne_iff_ne.2 nonempty, bne_iff_ne.2 hw]

theorem filter_nonempty (h : SameMask a b) :
    SameMask (a.filter (· != "")) (b.filter (· != "")) := by
  cases h with
  | same => exact .same _
  | hidden nonempty length ends =>
      have hvw := hidden nonempty length ends
      have hv := bne_iff_ne.2 nonempty
      rwa [Option.filter_some, if_pos hv, Option.filter_some, if_pos (hvw.ne_empty ▸ hv)]

theorem or (h : SameMask a b) (h' : SameMask a' b') : SameMask (a.or a') (b.or b') := by
  cases h with
  | same =>
      cases a with
      | none => exact h'
      | some _ => exact .same _
  | hidden nonempty length ends => exact hidden nonempty length ends

/-- The first values that are not empty look the same behind their masks. -/
theorem value? (h : e.Alike (· = ·) SameMask d) : SameMask e.value? d.value? := by
  obtain ⟨usage, suggested⟩ := e
  obtain ⟨usage', suggested'⟩ := d
  have hsuggested : List.Forall₂ (Suggestion.Alike (· = ·) SameMask) suggested suggested' := h.suggested
  have hfirst (s : Suggestion) (more : List Suggestion) :
      ((s :: more).filterMap (·.value)).find? (· != "") =
        (s.value.filter (· != "")).or ((more.filterMap (·.value)).find? (· != "")) := by
    cases hs : s.value with
    | none => simp [hs]
    | some value => by_cases hempty : value = "" <;> simp [hs, hempty, Option.filter]
  clear h
  unfold Entry.value?
  induction hsuggested with
  | nil => exact .same none
  | cons hst _ ih =>
      rw [hfirst, hfirst]
      exact hst.value.filter_nonempty.or ih

theorem masked_eq {v w : String} (h : SameMask (some v) (some w)) :
    Report.masked v = Report.masked w := by
  cases h with
  | same => rfl
  | hidden nonempty length ends =>
      unfold Report.masked Report.maskedChars
      simp only [String.length_toList, ← length, Report.visibleEnd]
      by_cases hlong : 8 < v.length
      · obtain ⟨hfirst, hlast⟩ := ends hlong
        have hsplit : 4 + (v.length - 2 * 4) = v.length - 4 := by omega
        rw [hsplit, hfirst, hlast, length]
      · rw [if_pos (by omega), if_pos (by omega)]

end SameMask

/-! ## What is printed -/

namespace Report

section Printed

variable [Terminal.Console]

/-- What two variables show of their values on a terminal is the same. -/
def ShowsAlike (view : ReportView) : ValueRel := fun a b =>
  ∀ v w : SuggestedVariable, v.value = a → w.value = b → valueLine? view v = valueLine? view w

theorem showsAlike_of_sameMask (view : ReportView) {a b : Option String} (h : SameMask a b) :
    ShowsAlike view a b := by
  intro v w hv hw
  cases a with
  | none =>
      cases h
      simp only [valueLine?, hv, hw]
  | some x =>
    cases b with
    | none => cases h
    | some y => simp only [valueLine?, hv, hw, h.ne_empty, h.masked_eq]

theorem showsAlike_of_not_verbose {view : ReportView} (h : view.verbose = false)
    (a b : Option String) : ShowsAlike view a b := by
  have hnone (v : SuggestedVariable) : valueLine? view v = none := by
    unfold valueLine?
    cases v.value <;> simp [h]
  intro v w _ _
  rw [hnone, hnone]

/-- Reports whose values show alike are the same on a terminal. -/
theorem Alike.printout_eq {a b : Report} (h : a.Alike r b) {view : ReportView}
    (hr : ∀ x y, r x y → ShowsAlike view x y) (cwd : Path) (scanned : String) (n : Nat) :
    a.printout view cwd scanned n = b.printout view cwd scanned n := by
  have hempty : a.suggested.isEmpty = b.suggested.isEmpty := by
    rw [← List.isEmpty_map (f := (·.name)),
      map_eq_map_of_forall₂ (fun _ _ hvw => hvw.name) h.suggested, List.isEmpty_map]
  have hlines : a.suggested.flatMap
        (fun v => suggestedLine cwd scanned v :: (valueLine? view v).toList) =
      b.suggested.flatMap
        (fun v => suggestedLine cwd scanned v :: (valueLine? view v).toList) := by
    rw [List.flatMap_def, List.flatMap_def]
    refine congrArg List.flatten (map_eq_map_of_forall₂ (fun v w hvw => ?_) h.suggested)
    rw [hr _ _ hvw.value v w rfl rfl, suggestedLine, suggestedLine, hvw.name, hvw.severity,
      hvw.files]
  have hcount (s : Severity) : a.count s = b.count s := by
    have hseverities := map_eq_map_of_forall₂ (fun _ _ hvw => hvw.severity) h.suggested
    have hcounted (x : Report) : x.count s = (x.suggested.map (·.severity)).count s := by
      rw [count, List.count_eq_length_filter, List.filter_map, List.length_map]
      rfl
    rw [hcounted, hcounted, hseverities]
  have hexisting : existingPart a view cwd scanned = existingPart b view cwd scanned := by
    rw [existingPart, existingPart, h.existing]
  have hsuggested : suggestedPart a view cwd scanned = suggestedPart b view cwd scanned := by
    rw [suggestedPart, suggestedPart, hempty, hlines]
  have hsummary : summaryPart a view = summaryPart b view := by
    simp only [summaryPart, hcount, h.existing, h.suggested.length_eq]
  rw [printout, printout, hempty, hexisting, hsuggested, hsummary]

/-- What is printed on findings, if the test comes to an answer. -/
def terminalText (test : IgnoreTest) (f : Findings) (threshold : Severity) (view : ReportView)
    (cwd : Path) (scanned : String) (scannedFiles : Nat) : Except FileError Terminal.Printout :=
  (test.report f threshold).map fun r => r.printout view cwd scanned scannedFiles

theorem terminalText_eq_of_alike (h : f.Alike (· = ·) r g)
    (hvalue : ∀ e d : Entry, e.Alike (· = ·) r d → r e.value? d.value?) {view : ReportView}
    (hr : ∀ x y, r x y → ShowsAlike view x y) (test : IgnoreTest) (threshold : Severity)
    (cwd : Path) (scanned : String) (scannedFiles : Nat) :
    terminalText test f threshold view cwd scanned scannedFiles =
      terminalText test g threshold view cwd scanned scannedFiles := by
  unfold terminalText IgnoreTest.report
  dsimp only
  rw [Findings.Alike.ignoredNames_eq test h.candidates]
  cases test.ignoredNames filesOf (g.sortedEntries.filter fun item => isCandidate item.2) with
  | error cause => rfl
  | ok ignored =>
      have hbuild := h.build hvalue ignored.contains threshold
      exact congrArg Except.ok (hbuild.printout_eq hr cwd scanned scannedFiles)

/-- Of values a terminal shows no more than their masks, whatever is ignored, shown and colored; and
where values are not asked for, it shows nothing of them. -/
theorem terminalText_hides_values (f g : Findings) (test : IgnoreTest) (threshold : Severity)
    (view : ReportView) (cwd : Path) (scanned : String) (scannedFiles : Nat) :
    (f.Alike (· = ·) SameMask g →
      terminalText test f threshold view cwd scanned scannedFiles =
        terminalText test g threshold view cwd scanned scannedFiles) ∧
      (view.verbose = false → f.Alike (· = ·) (fun _ _ => True) g →
        terminalText test f threshold view cwd scanned scannedFiles =
          terminalText test g threshold view cwd scanned scannedFiles) := by
  constructor
  · intro h
    exact terminalText_eq_of_alike h (fun _ _ => SameMask.value?)
      (fun _ _ => showsAlike_of_sameMask view) test threshold cwd scanned scannedFiles
  · intro hverbose h
    exact terminalText_eq_of_alike h (fun _ _ _ => trivial)
      (fun a b _ => showsAlike_of_not_verbose hverbose a b) test threshold cwd scanned scannedFiles

end Printed

/-- Findings with a name that has no value, an empty one and a secret one. -/
def tokenFindings (secret : Option String) : Findings :=
  ⟨[("PORT", { usage := ["b.js"] }),
    ("TOKEN", { suggested :=
      [⟨"c.js", none, some .low⟩, ⟨"a.js", some "", some .medium⟩, ⟨"b.js", secret, some .high⟩] })]⟩

theorem alike_tokenFindings {a b : Option String} (h : r a b) (hr : ∀ a, r a a) :
    (tokenFindings a).Alike (· = ·) r (tokenFindings b) := by
  refine .cons ⟨rfl, .cons rfl .nil, .nil⟩ (.cons ⟨rfl, .nil, ?_⟩ .nil)
  exact .cons ⟨rfl, rfl, hr _⟩ (.cons ⟨rfl, rfl, hr _⟩ (.cons ⟨rfl, rfl, h⟩ .nil))

open scoped Libraries in
theorem terminalText_hides_values_tokenFindings :
    (tokenFindings (some "sk-1-abc-9")).Alike (· = ·) SameMask (tokenFindings (some "sk-1xybc-9")) ∧
      terminalText .nothing (tokenFindings (some "sk-1-abc-9")) .low { verbose := true } ⟨.here, []⟩ "." 3 =
        terminalText .nothing (tokenFindings (some "sk-1xybc-9")) .low { verbose := true } ⟨.here, []⟩
          "." 3 ∧
      (tokenFindings (some "sk-1-abc-9")).Alike (· = ·) (fun _ _ => True) (tokenFindings none) ∧
        terminalText .nothing (tokenFindings (some "sk-1-abc-9")) .low {} ⟨.here, []⟩ "." 3 =
          terminalText .nothing (tokenFindings none) .low {} ⟨.here, []⟩ "." 3 := by
  have hmask : SameMask (some "sk-1-abc-9") (some "sk-1xybc-9") :=
    .hidden (by decide) (by decide) fun _ => by decide
  have halike := alike_tokenFindings hmask .same
  have hany := alike_tokenFindings (r := fun _ _ => True) (a := some "sk-1-abc-9") (b := none)
    trivial fun _ => trivial
  refine ⟨halike, ?_, hany, ?_⟩
  · exact (terminalText_hides_values _ _ .nothing .low { verbose := true } ⟨.here, []⟩ "." 3).1 halike
  · exact (terminalText_hides_values _ _ .nothing .low {} ⟨.here, []⟩ "." 3).2 rfl hany

end Report

end EnvAudit
