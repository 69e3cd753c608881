import EnvAudit.Proofs.Config.Ignored
import EnvAudit.Proofs.Result

/-!
# Answers about ignored files

Whether something is ignored can be told unless an entry of the configuration, or a file itself, cannot
be resolved.  Where it can be told, the answer is that of a callback, and more entries ignore more.
-/

namespace EnvAudit

theorem FileSystem.resolve_ne_fault (fs : FileSystem) (p : Path) (fault : FileFault) (spelling : String) :
    fs.resolve p ≠ .error (.fault fault spelling) := by
  rw [resolve]
  split
  · simp
  · dsimp only
    split <;> simp

/-! ## Tests as callbacks -/

namespace IgnoreTest

variable {test test' : IgnoreTest} {files : Entry → List String} {findings : Findings}
variable {entries : List (String × Entry)} {callback : IgnoreCallback} {name : String} {e : Entry}

theorem ignoredNames_congr
    (h : ∀ item ∈ entries, test item.1 (files item.2) = test' item.1 (files item.2)) :
    test.ignoredNames files entries = test'.ignoredNames files entries := by
  induction entries with
  | nil => rfl
  | cons item entries ih =>
      obtain ⟨name, e⟩ := item
      rw [ignoredNames_cons, ignoredNames_cons, h _ List.mem_cons_self,
        ih fun other hother => h other (List.mem_cons_of_mem _ hother)]

/-- Where the test fails for an entry, the names cannot be told, for the cause of some entry. -/
theorem exists_ignoredNames_eq_error {cause : FileError} (hmem : (name, e) ∈ entries)
    (h : test name (files e) = .error cause) :
    ∃ item ∈ entries, ∃ cause, test item.1 (files item.2) = .error cause ∧
      test.ignoredNames files entries = .error cause := by
  induction entries with
  | nil => cases hmem
  | cons item entries ih =>
      obtain ⟨first, firstEntry⟩ := item
      rw [ignoredNames_cons]
      cases hfirst : test first (files firstEntry) with
      | error other => exact ⟨_, List.mem_cons_self, other, hfirst, rfl⟩
      | ok isIgnored =>
          have hrest : (name, e) ∈ entries := by
            rcases List.mem_cons.1 hmem with heq | hrest
            · obtain ⟨rfl, rfl⟩ := Prod.mk.inj heq
              rw [h] at hfirst
              cases hfirst
            · exact hrest
          obtain ⟨item, hitem, other, hother, hnames⟩ := ih hrest
          refine ⟨item, List.mem_cons_of_mem _ hitem, other, hother, ?_⟩
          rw [hnames]
          rfl

/-- A name that could be suggested, of which it cannot be told whether it is ignored. -/
def Unanswered (test : IgnoreTest) (findings : Findings) (cause : FileError) : Prop :=
  ∃ name, Report.isCandidate (findings.get name) = true ∧
    test name (Report.filesOf (findings.get name)) = .error cause

/-- The test gives no other answers than a callback. -/
def Follows (test : IgnoreTest) (callback : IgnoreCallback) : Prop :=
  ∀ name files isIgnored, test name files = .ok isIgnored →
    isIgnored = leavesOut (some callback) name files

theorem mem_candidates_iff (h : findings.names.Nodup) :
    (name, e) ∈ findings.sortedEntries.filter (fun item => Report.isCandidate item.2) ↔
      Report.isCandidate e = true ∧ findings.get name = e := by
  rw [List.mem_filter, Findings.mem_sortedEntries_iff h]
  constructor
  · rintro ⟨⟨-, rfl⟩, hcandidate⟩
    exact ⟨hcandidate, rfl⟩
  · rintro ⟨hcandidate, rfl⟩
    have hname : name ∈ findings.names := by
      apply Findings.mem_names_of_get_ne
      intro hempty
      exact (Report.isCandidate_iff.1 hcandidate).2 (by rw [hempty])
    exact ⟨⟨hname, rfl⟩, hcandidate⟩

/-- The report of a test is that of the callback that it follows, unless something is unanswered. -/
theorem report_eq_of_follows (h : findings.names.Nodup) (hfollows : test.Follows callback)
    (hanswered : ∀ cause, ¬ test.Unanswered findings cause) (threshold : Severity) :
    test.report findings threshold = (ofCallback (some callback)).report findings threshold := by
  have hnames : test.ignoredNames Report.filesOf
      (findings.sortedEntries.filter fun item => Report.isCandidate item.2) =
        (ofCallback (some callback)).ignoredNames Report.filesOf
          (findings.sortedEntries.filter fun item => Report.isCandidate item.2) := by
    refine ignoredNames_congr fun item hitem => ?_
    obtain ⟨hcandidate, heq⟩ := (mem_candidates_iff h).1 hitem
    cases hanswer : test item.1 (Report.filesOf item.2) with
    | error cause =>
        rw [← heq] at hcandidate hanswer
        exact absurd ⟨item.1, hcandidate, hanswer⟩ (hanswered cause)
    | ok isIgnored => rw [hfollows _ _ _ hanswer, ofCallback]
  unfold report
  dsimp only
  rw [hnames]

theorem exists_report_eq_error (h : findings.names.Nodup) {cause : FileError}
    (hunanswered : test.Unanswered findings cause) (threshold : Severity) :
    ∃ cause, test.Unanswered findings cause ∧ test.report findings threshold = .error cause := by
  obtain ⟨name, hcandidate, hanswer⟩ := hunanswered
  obtain ⟨item, hitem, other, hother, hnames⟩ :=
    exists_ignoredNames_eq_error ((mem_candidates_iff h).2 ⟨hcandidate, rfl⟩) hanswer
  obtain ⟨hcandidate', heq⟩ := (mem_candidates_iff h).1 hitem
  rw [← heq] at hcandidate' hother
  refine ⟨other, ⟨item.1, hcandidate', hother⟩, ?_⟩
  unfold report
  dsimp only
  rw [hnames]
  rfl

/-- A report that fails has come upon something that is unanswered. -/
theorem unanswered_of_report_eq_error (h : findings.names.Nodup) (hfollows : test.Follows callback)
    {threshold : Severity} {cause : FileError} (hreport : test.report findings threshold = .error cause) :
    test.Unanswered findings cause := by
  by_cases hunanswered : ∃ cause, test.Unanswered findings cause
  · obtain ⟨other, hother⟩ := hunanswered
    obtain ⟨other, hother, heq⟩ := exists_report_eq_error h hother threshold
    obtain rfl := Except.error.inj (hreport.symm.trans heq)
    exact hother
  · rw [report_eq_of_follows h hfollows (not_exists.1 hunanswered), Report.report_ofCallback] at hreport
    cases hreport

end IgnoreTest

/-! ## The test of a configuration -/

namespace Config

variable {config config' : Config} {fs fs' : FileSystem} {base : Option Path} {file name : String}
variable {files : List String} {resolved : Path} {isIgnored : Bool} {cause : FileError}

/-- What a configuration ignores where it can be told. -/
def callback (config : Config) (fs : FileSystem) (base : Option Path) : IgnoreCallback where
  ignoresName := config.ignoresVariable
  ignoresFile file := (config.ignoresFile fs base file).toOption.getD false

theorem ignoresName_callback (config : Config) (fs : FileSystem) (base : Option Path) (name : String) :
    (config.callback fs base).ignoresName name = config.ignoresVariable name := rfl

theorem ignoresFile_callback (config : Config) (fs : FileSystem) (base : Option Path) (file : String) :
    (config.callback fs base).ignoresFile file =
      (config.ignoresFile fs base file).toOption.getD false := rfl

theorem follows_callback (config : Config) (fs : FileSystem) (base : Option Path) :
    (config.ignoreTest fs base).Follows (config.callback fs base) := by
  intro name files isIgnored h
  rw [ignoreTest] at h
  rw [leavesOut, Option.any_some]
  cases hname : config.ignoresVariable name with
  | true =>
      rw [hname, if_pos rfl] at h
      rw [← Except.ok.inj h, ignoresName_callback, hname, Bool.true_or]
  | false =>
      rw [hname, if_neg Bool.false_ne_true, ignoresAnyFile_eq_anyM] at h
      rw [ignoresName_callback, hname, Bool.false_or]
      cases isIgnored with
      | true =>
          obtain ⟨file, hfile, hanswer⟩ := exists_of_anyM_eq_ok_true h
          rw [eq_comm, List.any_eq_true]
          refine ⟨file, hfile, ?_⟩
          rw [ignoresFile_callback, hanswer]
          rfl
      | false =>
          rw [eq_comm, List.any_eq_false]
          intro file hfile
          rw [ignoresFile_callback, anyM_eq_ok_false_iff.1 h file hfile]
          exact Bool.false_ne_true

/-- An entry cannot be resolved from the working directory or from the base directory. -/
def Unresolvable (fs : FileSystem) (base : Option Path) (entry : String) (cause : FileError) : Prop :=
  fs.resolve (Path.ofString entry) = .error cause ∨
    ∃ dir, base = some dir ∧ fs.resolve (dir / Path.ofString entry) = .error cause

theorem unresolvable_of_entryIgnores {entry : String}
    (h : entryIgnores fs base file resolved entry = .error cause) :
    Unresolvable fs base entry cause := by
  rw [entryIgnores] at h
  rcases bind_eq_error_iff.1 h with hfirst | ⟨here, hhere, h⟩
  · exact .inl hfirst
  dsimp only at h
  split at h
  · cases h
  cases base with
  | none => cases h
  | some dir =>
      rcases bind_eq_error_iff.1 h with hsecond | ⟨there, hthere, h⟩
      · exact .inr ⟨dir, rfl, hsecond⟩
      · split at h <;> cases h

/-- Whether something is ignored can be told unless one of its files or an entry of the configuration
cannot be resolved. -/
theorem exists_of_ignoreTest_eq_error (h : config.ignoreTest fs base name files = .error cause) :
    (∃ file ∈ files, fs.resolve (Path.ofString file) = .error cause) ∨
      ∃ entry ∈ config.ignoredFiles, Unresolvable fs base entry cause := by
  rw [ignoreTest] at h
  split at h
  · cases h
  rw [ignoresAnyFile_eq_anyM] at h
  obtain ⟨file, hfile, hanswer⟩ := exists_of_anyM_eq_error h
  rw [ignoresFile] at hanswer
  split at hanswer
  · cases hanswer
  rcases bind_eq_error_iff.1 hanswer with hfails | ⟨resolved, hresolved, hanswer⟩
  · exact .inl ⟨file, hfile, hfails⟩
  · rw [anyEntryIgnores_eq_anyM] at hanswer
    obtain ⟨entry, hentry, hanswer⟩ := exists_of_anyM_eq_error hanswer
    exact .inr ⟨entry, hentry, unresolvable_of_entryIgnores hanswer⟩

/-! ## More entries -/

/-- A configuration that ignores all that another one ignores, where paths stand for the same. -/
structure Extends (config' config : Config) (fs' fs : FileSystem) : Prop where
  names : config.ignoredVariables ⊆ config'.ignoredVariables
  files : config.ignoredFiles ⊆ config'.ignoredFiles
  resolve : ∀ p, fs'.resolve p = fs.resolve p

theorem Extends.refl (config : Config) (fs : FileSystem) : Extends config config fs fs :=
  ⟨List.Subset.refl _, List.Subset.refl _, fun _ => rfl⟩

theorem Extends.ignoresVariable (h : Extends config' config fs' fs)
    (hname : config.ignoresVariable name = true) : config'.ignoresVariable name = true := by
  rw [Config.ignoresVariable, Bool.and_eq_true, List.contains_iff_mem] at hname ⊢
  exact ⟨hname.1, h.names hname.2⟩

theorem entryIgnores_congr (h : ∀ p, fs'.resolve p = fs.resolve p) (base : Option Path) (file : String)
    (resolved : Path) (entry : String) :
    entryIgnores fs' base file resolved entry = entryIgnores fs base file resolved entry := by
  simp only [entryIgnores, h]

/-- A file that is ignored is not told to be kept when there are more entries. -/
theorem Extends.ignoresFile_ne (h : Extends config' config fs' fs)
    (hfile : config.ignoresFile fs base file = .ok true) :
    config'.ignoresFile fs' base file ≠ .ok false := by
  obtain ⟨goal, hgoal⟩ := exists_denotes_of_ignoresFile hfile
  have hgoal' : fs'.Denotes file goal := ⟨hgoal.1, (h.resolve _).trans hgoal.2⟩
  rw [ignoresFile_eq_anyM hgoal] at hfile
  rw [ignoresFile_eq_anyM hgoal', Ne, anyM_eq_ok_false_iff]
  obtain ⟨entry, hentry, hanswer⟩ := exists_of_anyM_eq_ok_true hfile
  intro hkept
  have hnot := hkept entry (h.files hentry)
  rw [entryIgnores_congr h.resolve, hanswer] at hnot
  cases hnot

/-- What is left out is still left out when there are more entries, if that can be told. -/
theorem Extends.leavesOut (h : Extends config' config fs' fs)
    (hout : leavesOut (some (config.callback fs base)) name files = true)
    (hanswered : ∀ cause, config'.ignoreTest fs' base name files ≠ .error cause) :
    leavesOut (some (config'.callback fs' base)) name files = true := by
  cases hanswer : config'.ignoreTest fs' base name files with
  | error cause => exact absurd hanswer (hanswered cause)
  | ok isIgnored =>
      rw [← follows_callback config' fs' base name files isIgnored hanswer]
      rw [EnvAudit.leavesOut, Option.any_some, Bool.or_eq_true, List.any_eq_true] at hout
      rw [ignoreTest] at hanswer
      split at hanswer
      · exact (Except.ok.inj hanswer).symm
      · rename_i hname'
        rcases hout with hname | ⟨file, hfile, hignored⟩
        · exact absurd (h.ignoresVariable hname) hname'
        · rw [ignoresAnyFile_eq_anyM] at hanswer
          by_contra hkept
          rw [eq_false_of_ne_true hkept, anyM_eq_ok_false_iff] at hanswer
          refine h.ignoresFile_ne ?_ (hanswer file hfile)
          rw [ignoresFile_callback] at hignored
          cases hold : config.ignoresFile fs base file with
          | error cause =>
              rw [hold] at hignored
              cases hignored
          | ok answer =>
              rw [hold] at hignored
              exact congrArg Except.ok hignored

end Config

end EnvAudit
