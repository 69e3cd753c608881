import EnvAudit.Config.File
import EnvAudit.Dotenv
import EnvAudit.Proofs.FileSystem.Relative
import EnvAudit.Proofs.Report.Selection
import EnvAudit.Proofs.Result

/-!
# Ignored variables and files

A variable that the configuration ignores is ignored in every file.  It is therefore neither suggested
in a report nor added to an environment file, whatever was found.  A file that an entry of the
configuration leads to, from the working directory or from that of the project, keeps every suggestion
that has it among its files out of a report.
-/

namespace EnvAudit

variable {test : IgnoreTest} {name : String} {findings : Findings}

namespace IgnoreTest

/-- A name that is found in files is ignored, if the test comes to an answer. -/
def Ignores (test : IgnoreTest) (name : String) (files : List String) : Prop :=
  ∀ isIgnored, test name files = .ok isIgnored → isIgnored = true

/-- A name is ignored wherever it is found. -/
def IgnoresEverywhere (test : IgnoreTest) (name : String) : Prop := ∀ files, test name files = .ok true

theorem IgnoresEverywhere.ignores (h : test.IgnoresEverywhere name) (files : List String) :
    test.Ignores name files := by
  intro isIgnored hanswer
  rw [h] at hanswer
  exact (Except.ok.inj hanswer).symm

theorem ignoredNames_cons (test : IgnoreTest) (files : Entry → List String) (first : String)
    (e : Entry) (entries : List (String × Entry)) :
    test.ignoredNames files ((first, e) :: entries) = (do
      let isIgnored ← test first (files e)
      let others ← test.ignoredNames files entries
      return if isIgnored then first :: others else others) := by
  rw [ignoredNames, List.filterMapM_cons, ← ignoredNames]
  dsimp only
  rcases test first (files e) with cause | _ | _
  · rfl
  · cases test.ignoredNames files entries <;> rfl
  · rfl

theorem mem_ignoredNames {files : Entry → List String} {entries : List (String × Entry)}
    {ignored : List String} {e : Entry} (h : test.Ignores name (files e))
    (hignored : test.ignoredNames files entries = .ok ignored) (hmem : (name, e) ∈ entries) :
    name ∈ ignored := by
  induction entries generalizing ignored with
  | nil => cases hmem
  | cons entry entries ih =>
      obtain ⟨first, firstEntry⟩ := entry
      rw [ignoredNames_cons] at hignored
      obtain ⟨isIgnored, hfirst, hignored⟩ := bind_eq_ok_iff.1 hignored
      obtain ⟨others, hothers, hignored⟩ := bind_eq_ok_iff.1 hignored
      obtain rfl := Except.ok.inj hignored
      rcases List.mem_cons.1 hmem with heq | hmem
      · obtain ⟨rfl, rfl⟩ := Prod.mk.inj heq
        obtain rfl := h isIgnored hfirst
        exact List.mem_cons_self
      · have hname := ih hothers hmem
        split
        · exact List.mem_cons_of_mem first hname
        · exact hname

/-- What a report suggests is not ignored for its name and its files. -/
theorem not_ignores_of_mem_suggested {threshold : Severity} {report : Report} {v : SuggestedVariable}
    (hreport : test.report findings threshold = .ok report) (hv : v ∈ report.suggested) :
    ¬ test.Ignores v.name v.files := by
  rw [IgnoreTest.report] at hreport
  obtain ⟨ignored, hignored, hreport⟩ := bind_eq_ok_iff.1 hreport
  obtain rfl := Except.ok.inj hreport
  intro h
  rw [Report.suggested_build, List.mem_mergeSort, Report.selected, List.mem_filter, List.mem_map] at hv
  obtain ⟨⟨⟨name, e⟩, hitem, rfl⟩, -⟩ := hv
  obtain ⟨hentry, hshown⟩ := List.mem_filter.1 hitem
  obtain ⟨hcandidate, hunignored⟩ := Bool.and_eq_true_iff.1 hshown
  have hmem : name ∈ ignored :=
    mem_ignoredNames h hignored (List.mem_filter.2 ⟨hentry, hcandidate⟩)
  simp [hmem] at hunignored

end IgnoreTest

namespace Dotenv

variable {fs : FileSystem} {p : Path} {outcome : Outcome} {text : List Char} {ignored : List String}

end Dotenv

namespace Config

variable {config : Config} {fs : FileSystem} {base : Option Path} {dir goal : Path}
  {file entry : String} {files : List String} {isIgnored : Bool}

theorem anyEntryIgnores_eq_anyM (fs : FileSystem) (base : Option Path) (file : String)
    (resolved : Path) (entries : List String) :
    anyEntryIgnores fs base file resolved entries =
      entries.anyM (entryIgnores fs base file resolved) := by
  induction entries with
  | nil => rfl
  | cons entry entries ih => rw [anyEntryIgnores, anyM_cons, ih]

theorem ignoresAnyFile_eq_anyM (config : Config) (fs : FileSystem) (base : Option Path)
    (files : List String) :
    config.ignoresAnyFile fs base files = files.anyM (config.ignoresFile fs base) := by
  induction files with
  | nil => rfl
  | cons file files ih => rw [ignoresAnyFile, anyM_cons, ih]

/-- An entry ignores a file in one of three ways. -/
theorem entryIgnores_eq_ok (h : entryIgnores fs base file goal entry = .ok isIgnored) :
    isIgnored = true ↔ fs.resolve (.ofString entry) = .ok goal ∨
      (∃ dir, base = some dir ∧ fs.LeadsTo dir entry goal) ∨
        globFits (globPath base file goal) entry = true := by
  rw [entryIgnores] at h
  obtain ⟨here, hhere, h⟩ := bind_eq_ok_iff.1 h
  rw [hhere, Except.ok.injEq]
  dsimp only at h
  split at h
  · rename_i hsame
    rw [← Except.ok.inj h]
    exact iff_of_true rfl (.inl (beq_iff_eq.1 hsame))
  rename_i hother
  have hne : here ≠ goal := by simpa using hother
  rw [or_iff_right hne]
  cases base with
  | none =>
      rw [← Except.ok.inj h]
      simp
  | some dir =>
      obtain ⟨there, hthere, h⟩ := bind_eq_ok_iff.1 h
      have hleads : (∃ other, some dir = some other ∧ fs.LeadsTo other entry goal) ↔ there = goal := by
        simp [FileSystem.LeadsTo, hthere]
      rw [hleads]
      split at h
      · rename_i hsame
        rw [← Except.ok.inj h]
        exact iff_of_true rfl (.inl (beq_iff_eq.1 hsame))
      · rename_i hother
        rw [← Except.ok.inj h]
        simp [show there ≠ goal by simpa using hother]

/-- An entry that leads to a file ignores it, unless a path on the way cannot be resolved. -/
theorem entryIgnores_of_leadsTo (hfs : fs.Sound) (hdir : dir = fs.cwdPath ∨ base = some dir)
    (hleads : fs.LeadsTo dir entry goal) (h : entryIgnores fs base file goal entry = .ok isIgnored) :
    isIgnored = true := by
  rw [entryIgnores_eq_ok h]
  rcases hdir with rfl | rfl
  · exact .inl (hfs.leadsTo_cwdPath_iff.1 hleads)
  · exact .inr (.inl ⟨dir, rfl, hleads⟩)

/-- A file is ignored if one of the entries ignores the path that it denotes. -/
theorem ignoresFile_eq_anyM (hgoal : fs.Denotes file goal) :
    config.ignoresFile fs base file = config.ignoredFiles.anyM (entryIgnores fs base file goal) := by
  rw [ignoresFile]
  split
  · rename_i hempty
    rw [List.isEmpty_iff.1 (hempty.resolve_left hgoal.1)]
    rfl
  · rw [hgoal.2]
    exact anyEntryIgnores_eq_anyM _ _ _ _ _

/-- A file that a list of entries was asked for denotes a path. -/
theorem exists_denotes_of_ignoresFile (h : config.ignoresFile fs base file = .ok true) :
    ∃ goal, fs.Denotes file goal := by
  rw [ignoresFile] at h
  split at h
  · cases h
  · rename_i hasked
    obtain ⟨goal, hgoal, -⟩ := bind_eq_ok_iff.1 h
    exact ⟨goal, (not_or.1 hasked).1, hgoal⟩

theorem ignoresAnyFile_of_leadsTo (hfs : fs.Sound) (hdir : dir = fs.cwdPath ∨ base = some dir)
    (hleads : fs.LeadsTo dir entry goal) (hentry : entry ∈ config.ignoredFiles)
    (hfile : file ∈ files) (hgoal : fs.Denotes file goal)
    (h : config.ignoresAnyFile fs base files = .ok isIgnored) : isIgnored = true := by
  by_contra hkept
  rw [ignoresAnyFile_eq_anyM, eq_false_of_ne_true hkept, anyM_eq_ok_false_iff] at h
  have hnone := h file hfile
  rw [ignoresFile_eq_anyM hgoal, anyM_eq_ok_false_iff] at hnone
  cases entryIgnores_of_leadsTo hfs hdir hleads (hnone entry hentry)

end Config

/-- A name that is found in a file to which an entry leads is ignored. -/
theorem Settings.ignores_of_leadsTo {settings : Settings} {fs : FileSystem} {dir goal : Path}
    {file entry : String} {files : List String} (hfs : fs.Sound)
    (hdir : dir = fs.cwdPath ∨ settings.base = some dir) (hleads : fs.LeadsTo dir entry goal)
    (hentry : entry ∈ settings.config.ignoredFiles) (hfile : file ∈ files)
    (hgoal : fs.Denotes file goal) : (settings.ignoreTest fs).Ignores name files := by
  intro isIgnored h
  rw [ignoreTest, Config.ignoreTest] at h
  split at h
  · exact (Except.ok.inj h).symm
  · exact Config.ignoresAnyFile_of_leadsTo hfs hdir hleads hentry hfile hgoal h

end EnvAudit
