import EnvAudit.Proofs.CommandLine.IgnoredFile
import EnvAudit.Proofs.CommandLine.Prepare
import EnvAudit.Proofs.Config.Answered

/-!
# The verdict of a scan

A scan that writes its report as a document fails exactly if a name that the report is left with reaches
the severity to fail on, as long as it can be told what is ignored.  If it cannot be told, the program
ends early, and with the exit code of a scan that fails.
-/

namespace EnvAudit

theorem Config.value_threshold (config : Config) :
    config.threshold.value = (Severity.parse config.minSeverity).toOption.getD .low := by
  delta threshold
  cases Severity.parse config.minSeverity <;> rfl

/-! ## What a scan finds -/

theorem TreeScan.wellFormed_follow {engine : Engine} {fs : FileSystem} (met : List Visit)
    {outcome : Outcome} (h : outcome.findings.WellFormed) :
    (follow engine fs outcome met).value.1.findings.WellFormed := by
  induction met generalizing outcome with
  | nil => exact h
  | cons visit rest ih =>
      cases visit with
      | refused _ => exact h
      | skipped _ =>
          simp only [follow, Logged.value_bind]
          exact ih h
      | file p =>
          rw [follow]
          cases Language.ofPath? p with
          | none => exact ih h
          | some language =>
              simp only [Logged.value_bind]
              rcases (FileScan.scanFile engine fs p language).value with cause | _ | found
              · exact h
              · exact ih h
              · exact ih (h.merge found)

/-- A scan begins with a question about its path, so that the system answers others about it too. -/
theorem Scanner.exists_isDir_of_scan {s : Scanner} {fs : FileSystem} {path : Path} {findings : Findings}
    (h : (s.scan fs path).value.2 = .ok findings) : ∃ isDir, fs.isDir path = .ok isDir := by
  cases hfile : fs.isFile path with
  | error cause =>
      have hstart : TreeScan.start fs s.excluded path = .error cause := by
        rw [TreeScan.start, hfile]
        rfl
      rw [scan, TreeScan.scan, hstart] at h
      cases h
  | ok isFile =>
      rw [FileSystem.isFile, FileSystem.tells_eq_ok_iff] at hfile
      exact ⟨_, FileSystem.tells_eq_ok_iff.2 ⟨hfile.1, rfl⟩⟩

theorem Scanner.wellFormed_of_scan {s : Scanner} {fs : FileSystem} {path : Path} {findings : Findings}
    (h : (s.scan fs path).value.2 = .ok findings) : findings.WellFormed := by
  have houtcome : (TreeScan.scan s.engine fs s.excluded path).value.1.findings.WellFormed := by
    rw [TreeScan.scan]
    split
    · exact Findings.wellFormed_empty
    · exact TreeScan.wellFormed_follow _ Findings.wellFormed_empty
  simp only [scan, Logged.value_bind, Logged.value_pure] at h
  generalize (TreeScan.scan s.engine fs s.excluded path).value = ending at h houtcome
  obtain ⟨outcome, cause | _⟩ := ending
  · cases h
  · obtain rfl := Except.ok.inj h
    exact houtcome

namespace Report

variable {f : Findings} {callback callback' : Option IgnoreCallback} {threshold level : Severity}
  {name : String}

theorem Suggests.anti (h : Suggests f callback level name) (hle : threshold ≤ level) :
    Suggests f callback threshold name where
  unused := h.unused
  suggested := h.suggested
  kept := h.kept
  reached := h.reached.imp fun _ ⟨hgreatest, hreached⟩ => ⟨hgreatest, hle.trans hreached⟩

/-- A report reaches a severity exactly if it is left with a name when its threshold is raised to it. -/
theorem Exact.reaches_iff {r : Report} (h : Exact r f callback threshold) :
    CommandLine.reaches r (some level) = true ↔
      ∃ name, Suggests f callback (max threshold level) name := by
  have hreaches : CommandLine.reaches r (some level) = true ↔
      ∃ v, r.suggested.head? = some v ∧ level ≤ v.severity := by
    unfold CommandLine.reaches
    rw [h.maxSeverity]
    cases r.suggested.head? <;> simp
  rw [hreaches]
  constructor
  · rintro ⟨v, hhead, hle⟩
    have hv : v ∈ r.suggested := List.mem_of_head? hhead
    have hname := (h.mem_suggested v.name).1 (List.mem_map_of_mem hv)
    obtain ⟨severity, hgreatest, hreached⟩ := hname.reached
    refine ⟨v.name, hname.unused, hname.suggested, hname.kept, severity, hgreatest, ?_⟩
    rw [hgreatest.unique (h.severity_greatest v hv)] at hreached ⊢
    exact max_le hreached hle
  · rintro ⟨name, hname⟩
    obtain ⟨v, hv, rfl⟩ := List.mem_map.1 ((h.mem_suggested name).2 (hname.anti (le_max_left _ _)))
    obtain ⟨severity, hgreatest, hreached⟩ := hname.reached
    rw [hgreatest.unique (h.severity_greatest v hv)] at hreached
    have hordered := h.suggested_ordered
    obtain ⟨first, rest, hlist⟩ := List.exists_cons_of_ne_nil (List.ne_nil_of_mem hv)
    rw [hlist] at hv hordered ⊢
    refine ⟨first, rfl, (le_max_right _ _).trans (hreached.trans ?_)⟩
    rcases List.mem_cons.1 hv with rfl | hrest
    · exact le_rfl
    · exact ((List.pairwise_cons.1 hordered).1 v hrest).elim le_of_lt fun hbefore => hbefore.1.ge

end Report

namespace CommandLine

open Act

variable {fs fs' : FileSystem} {args : List String} {options options' : ScanOptions}
  {settings settings' : Settings} {findings findings' : Findings} {loudness : Loudness}

/-! ## The verdict -/

/-- The least severity that a scan reports: the one that it is asked for, and else that of the
configuration, which is the lowest one if it names none. -/
def ScanOptions.level (options : ScanOptions) (config : Config) : Severity :=
  options.severity.getD ((Severity.parse config.minSeverity).toOption.getD .low)

/-- There is a severity to fail on, and a name that nothing uses and that is not ignored reaches both
this one and the least one to report. -/
def Fails (options : ScanOptions) (fs : FileSystem) (settings : Settings) (findings : Findings) : Prop :=
  ∃ level ∈ options.failOn, ∃ name, Report.Suggests findings
    (some (settings.config.callback fs settings.base)) (max (options.level settings.config) level) name

/-- A scan asks for as much as another one before it fails or reports something, or for more. -/
structure Raises (options' options : ScanOptions) (config' config : Config) : Prop where
  failOn : ∀ level' ∈ options'.failOn, ∃ level ∈ options.failOn, level ≤ level'
  level : options.level config ≤ options'.level config'

/-- A scan that ignores more and asks for more fails only where the other one fails, if it can be told
what it ignores. -/
theorem Fails.of_raises (h : Fails options' fs' settings' findings)
    (hraises : Raises options' options settings'.config settings.config)
    (hextends : settings'.config.Extends settings.config fs' fs) (hbase : settings'.base = settings.base)
    (hanswered : ∀ cause, ¬ (settings'.ignoreTest fs').Unanswered findings cause) :
    Fails options fs settings findings := by
  obtain ⟨level', hlevel', name, hname⟩ := h
  obtain ⟨level, hlevel, hle⟩ := hraises.failOn level' hlevel'
  refine ⟨level, hlevel, name, hname.unused, hname.suggested, Report.leavesOut_eq_false_iff.1 ?_, ?_⟩
  · have hkept := Report.leavesOut_eq_false_iff.2 hname.kept
    rw [← Bool.not_eq_true] at hkept ⊢
    intro hout
    refine hkept ?_
    rw [hbase]
    refine hextends.leavesOut hout fun cause hcause => hanswered cause ⟨name, ?_, ?_⟩
    · exact Report.isCandidate_iff.2 ⟨hname.unused, hname.suggested⟩
    · rw [Settings.ignoreTest, hbase]
      exact hcause
  · obtain ⟨severity, hgreatest, hreached⟩ := hname.reached
    exact ⟨severity, hgreatest, (max_le_max hraises.level hle).trans hreached⟩

/-! ## What is reported -/

/-- What a scan comes to report, or why it cannot. -/
def reported (options : ScanOptions) (fs : FileSystem) (settings : Settings) (findings : Findings) :
    Except FileError Report :=
  (settings.ignoreTest fs).report findings (options.level settings.config)

theorem gives_reportOn :
    Gives fs (reportOn options settings findings) fun result after => after = fs ∧
      result = (reported options fs settings findings).mapError (.document ∘ .file) := by
  have hrest : ∀ threshold, Gives fs
      (do file ((settings.ignoreTest (← files)).report findings threshold)) fun result after =>
        after = fs ∧ result = ((settings.ignoreTest fs).report findings threshold).mapError
          (.document ∘ .file) := by
    intro threshold
    apply gives_files_bind
    cases (settings.ignoreTest fs).report findings threshold with
    | ok report => exact gives_pure ⟨rfl, rfl⟩
    | error cause => exact gives_throw ⟨rfl, rfl⟩
  rw [reportOn, reported, ScanOptions.level]
  cases options.severity with
  | some severity => exact hrest severity
  | none =>
      apply gives_logged_bind
      rw [Config.value_threshold, Option.getD_none]
      exact hrest _

/-- A lookup that cannot be answered is none that the system has refused. -/
theorem ne_fault_of_unanswered {cause : FileError}
    (h : (settings.ignoreTest fs).Unanswered findings cause) (fault : FileFault) (spelling : String) :
    cause ≠ .fault fault spelling := by
  rintro rfl
  obtain ⟨name, -, hanswer⟩ := h
  rcases Config.exists_of_ignoreTest_eq_error hanswer with ⟨file, -, hfile⟩ | ⟨entry, -, hentry⟩
  · exact fs.resolve_ne_fault _ _ _ hfile
  · rcases hentry with hhere | ⟨dir, -, hbase⟩
    · exact fs.resolve_ne_fault _ _ _ hhere
    · exact fs.resolve_ne_fault _ _ _ hbase

/-- What a scan ends with, once it is known what it reports. -/
def endOf (options : ScanOptions) : Except FileError Report → Except Failure Nat
  | .ok report => .ok (if reaches report options.failOn then 1 else 0)
  | .error cause => .error (.document (.file cause))

/-- The exit code of a scan, once it is known what it reports. -/
def exitCodeOf (options : ScanOptions) : Except FileError Report → Nat
  | .ok report => if reaches report options.failOn then 1 else 0
  | .error _ => 1

theorem exitCodeOf_eq_zero_or_one (report : Except FileError Report) :
    exitCodeOf options report = 0 ∨ exitCodeOf options report = 1 := by
  cases report with
  | ok report =>
      rw [exitCodeOf]
      split
      · exact .inr rfl
      · exact .inl rfl
  | error cause => exact .inr rfl

/-! ## Scans that go through -/

section Libraries

variable [Yaml.Library] [Pattern.Compiler]

/-- The scanner of a scan, with all rules of the rule files. -/
def ScanOptions.scanner (options : ScanOptions) (fs : FileSystem) (config : Config) : Scanner where
  engine := Config.engineWith
    ((config.ruleFilesWith fs options.ruleFiles).flatMap (RuleFile.rulesAt fs))
  excluded := config.excludedDirs

variable [ArgumentParser]

/-- Arguments that ask for a scan which writes its report as a document and nothing else.  What it loads
is in order, and the system lets it look up the rule files, list the files and write the report. -/
structure Scans (args : List String) (fs : FileSystem) (options : ScanOptions) (settings : Settings)
    (findings : Findings) : Prop where
  asked : ∃ loudness, Request.read fs args = .ok (.run loudness (.scan options))
  json : options.format = .json
  noEnvFile : options.envFile = none
  loaded : ∃ found, (Settings.load {} fs options.path).value = (settings, .ok found)
  told : settings.config.TellsRuleFiles fs
  inOrder : ∀ file ∈ settings.config.ruleFilesWith fs options.ruleFiles, ¬ RuleFile.Breaks fs file
  found : ((options.scanner fs settings.config).scan fs options.path).value.2 = .ok findings
  written : ∀ target ∈ options.output, ∃ place, fs.Writable target place

/-- What a scan loads and finds is settled by what it scans and by its rule files. -/
theorem Scans.eq_of_path_eq {args' : List String} (h : Scans args fs options settings findings)
    (h' : Scans args' fs options' settings' findings') (hpath : options'.path = options.path)
    (hrules : options'.ruleFiles = options.ruleFiles) : settings' = settings ∧ findings' = findings := by
  obtain ⟨found, hload⟩ := h.loaded
  obtain ⟨found', hload'⟩ := h'.loaded
  rw [hpath] at hload'
  obtain rfl := (Prod.mk.inj (hload'.symm.trans hload)).1
  have hfound' := h'.found
  rw [ScanOptions.scanner, hpath, hrules] at hfound'
  exact ⟨rfl, Except.ok.inj (hfound'.symm.trans h.found)⟩

/-! ## What cannot be told -/

theorem Scans.names_nodup (h : Scans args fs options settings findings) : findings.names.Nodup :=
  (Scanner.wellFormed_of_scan h.found).names_nodup

theorem Scans.unanswered_of_reported_eq_error (h : Scans args fs options settings findings)
    {cause : FileError} (hreport : reported options fs settings findings = .error cause) :
    (settings.ignoreTest fs).Unanswered findings cause :=
  IgnoreTest.unanswered_of_report_eq_error h.names_nodup
    (settings.config.follows_callback fs settings.base) hreport

/-! ## The steps of the scan -/

section Console

variable [Terminal.Console]

theorem Scans.returns_prepare (h : Scans args fs options settings findings) (loudness : Loudness) :
    Returns fs (prepare options loudness)
      (settings, (options.scanner fs settings.config).engine) := by
  obtain ⟨found, hload⟩ := h.loaded
  have hengine : Returns fs (engineFor settings.config options.ruleFiles)
      (options.scanner fs settings.config).engine := by
    intro s hs
    subst hs
    exact ⟨engineFor_eq_ok_iff.2 ⟨h.told, h.inOrder, rfl⟩, (reads_engineFor_of_any _ _ s rfl).1⟩
  rw [prepare]
  refine (returns_settingsFor hload).bind ?_
  dsimp only
  split
  · rw [if_neg (by simp [h.json])]
    exact hengine.bind (returns_pure _)
  · exact hengine.bind (returns_pure _)

theorem Scans.exists_returns_findingsOf (h : Scans args fs options settings findings)
    (loudness : Loudness) :
    ∃ scannedFiles, Returns fs
      (findingsOf options loudness settings (options.scanner fs settings.config).engine)
        (findings, scannedFiles) := by
  have hannounce : Returns fs (announce options loudness) () := by
    rw [announce, if_neg (by simp [h.json])]
    exact returns_pure _
  refine ⟨((options.scanner fs settings.config).scan fs options.path).value.1.scannedFiles, ?_⟩
  rw [findingsOf]
  refine hannounce.bind (gives_files_bind (gives_logged_bind ?_))
  refine gives_file_bind ?_ ?_
  · intro found hfound
    rw [ScanOptions.scanner] at hfound
    rw [show found = findings from Except.ok.inj (hfound.symm.trans h.found)]
    exact returns_pure _
  · intro cause hcause
    cases hcause.symm.trans h.found

theorem Scans.gives_showReport (h : Scans args fs options settings findings) (loudness : Loudness)
    (report : Report) (scannedFiles : Nat) :
    Gives fs (showReport options loudness report findings scannedFiles) fun result _ =>
      result = .ok () := by
  obtain ⟨_, hisDir⟩ := Scanner.exists_isDir_of_scan h.found
  rw [showReport]
  apply gives_files_bind
  refine gives_file_bind (fun isDir _ => ?_) fun cause hcause => by cases hisDir.symm.trans hcause
  dsimp only
  rw [h.json]
  cases houtput : options.output with
  | none => exact (gives_echo _).weaken fun _ _ hresult => hresult.1
  | some target =>
      obtain ⟨place, hplace⟩ := h.written target houtput
      refine gives_file_bind (fun _ _ => gives_setFiles rfl) ?_
      intro cause hcause
      cases hcause.symm.trans (hplace.modifyFile_eq _)

theorem Scans.gives_scanPath (h : Scans args fs options settings findings) (loudness : Loudness) :
    Gives fs (scanPath options loudness) fun result _ =>
      result = endOf options (reported options fs settings findings) := by
  obtain ⟨scannedFiles, hfindings⟩ := h.exists_returns_findingsOf loudness
  rw [scanPath]
  refine (h.returns_prepare loudness).bind (hfindings.bind (gives_reportOn.bind ?_ ?_))
  · rintro report after ⟨hafter, hreport⟩
    rw [hafter]
    cases hmade : reported options fs settings findings with
    | error cause =>
        rw [hmade] at hreport
        cases hreport
    | ok made =>
        rw [hmade] at hreport
        obtain rfl := Except.ok.inj hreport
        refine (h.gives_showReport loudness report scannedFiles).bind ?_ (by rintro _ _ ⟨⟩)
        intro _ _ _
        rw [h.noEnvFile]
        exact gives_pure rfl
  · rintro cause after ⟨-, hreport⟩
    cases hmade : reported options fs settings findings with
    | error cause =>
        rw [hmade] at hreport
        rw [Except.error.inj hreport]
        rfl
    | ok made =>
        rw [hmade] at hreport
        cases hreport

/-- A scan that cannot tell what is ignored does not take this for a refusal by the system. -/
theorem Scans.gives_scan (h : Scans args fs options settings findings) (loudness : Loudness) :
    Gives fs (scan options loudness) fun result _ =>
      result = endOf options (reported options fs settings findings) := by
  rw [scan]
  refine (h.gives_scanPath loudness).handled (fun _ _ hend => hend) ?_
  intro failure after hend
  cases hmade : reported options fs settings findings with
  | ok made =>
      rw [hmade] at hend
      cases hend
  | error cause =>
      rw [hmade] at hend
      obtain rfl := Except.error.inj hend
      have hcause := ne_fault_of_unanswered (h.unanswered_of_reported_eq_error hmade)
      cases cause with
      | fault fault spelling => exact absurd rfl (hcause fault spelling)
      | nullCharacter => exact gives_throw rfl
      | linkLoop path => exact gives_throw rfl
      | notText => exact gives_throw rfl

/-! ## The exit code -/

theorem Scans.exitCode_run (h : Scans args fs options settings findings) (input : List String) :
    (run args input fs).exitCode = exitCodeOf options (reported options fs settings findings) := by
  obtain ⟨loudness, hasked⟩ := h.asked
  have hend := h.gives_scan loudness { fs, input } rfl
  rw [run, hasked]
  dsimp only [Command.perform]
  generalize (scan options loudness).run.run { fs, input } = ending at hend
  obtain ⟨result, session⟩ := ending
  obtain rfl : result = _ := hend
  cases reported options fs settings findings <;> rfl

theorem Scans.exitCode_eq_one_iff (h : Scans args fs options settings findings) (input : List String) :
    (run args input fs).exitCode = 1 ↔ Fails options fs settings findings ∨
      ∃ cause, (settings.ignoreTest fs).Unanswered findings cause := by
  rw [h.exitCode_run]
  by_cases hunanswered : ∃ cause, (settings.ignoreTest fs).Unanswered findings cause
  · obtain ⟨_, -, hreport⟩ := IgnoreTest.exists_report_eq_error h.names_nodup
      hunanswered.choose_spec (options.level settings.config)
    rw [reported, hreport]
    exact iff_of_true rfl (.inr hunanswered)
  · have hexact := Report.exact_build h.names_nodup
      (some (settings.config.callback fs settings.base)) (options.level settings.config)
    have hreport : reported options fs settings findings = _ :=
      IgnoreTest.report_eq_of_follows h.names_nodup
        (settings.config.follows_callback fs settings.base) (not_exists.1 hunanswered) _
    rw [hreport, Report.report_ofCallback, or_iff_left hunanswered, exitCodeOf, Fails]
    cases options.failOn with
    | none => exact iff_of_false Nat.zero_ne_one nofun
    | some level =>
        simp only [Option.mem_some_iff, exists_eq_left', ← hexact.reaches_iff]
        split <;> simp_all

theorem Scans.exitCode_eq_zero_iff (h : Scans args fs options settings findings) (input : List String) :
    (run args input fs).exitCode = 0 ↔ ¬ Fails options fs settings findings ∧
      ∀ cause, ¬ (settings.ignoreTest fs).Unanswered findings cause := by
  rw [← not_exists, ← not_or, ← h.exitCode_eq_one_iff input, h.exitCode_run]
  rcases exitCodeOf_eq_zero_or_one (reported options fs settings findings) with hcode | hcode
  · rw [hcode]
    exact iff_of_true rfl Nat.zero_ne_one
  · rw [hcode]
    exact iff_of_false Nat.one_ne_zero (not_not.2 rfl)

/-- A scan that writes its report as a document and is refused nothing has the exit code one exactly if
it fails or cannot tell what is ignored, and else zero.  It can tell as long as all entries and files can
be resolved.  A scan that asks for more, or one that also ignores more and can tell what, does not fail
where the first one does not. -/
theorem exitCode_of_scans (h : Scans args fs options settings findings) (input : List String) :
    ((run args input fs).exitCode = 0 ∨ (run args input fs).exitCode = 1) ∧
      ((run args input fs).exitCode = 1 ↔ Fails options fs settings findings ∨
        ∃ cause, (settings.ignoreTest fs).Unanswered findings cause) ∧
      (∀ cause, (settings.ignoreTest fs).Unanswered findings cause →
        (∃ name, ∃ file ∈ Report.filesOf (findings.get name),
          fs.resolve (Path.ofString file) = .error cause) ∨
            ∃ entry ∈ settings.config.ignoredFiles, Config.Unresolvable fs settings.base entry cause) ∧
      (∀ args' input' options' settings' findings', Scans args' fs options' settings' findings' →
        options'.path = options.path → options'.ruleFiles = options.ruleFiles →
          Raises options' options settings'.config settings.config →
            (run args input fs).exitCode = 0 → (run args' input' fs).exitCode = 0) ∧
      ∀ args' input' fs' options' settings', Scans args' fs' options' settings' findings →
        Raises options' options settings'.config settings.config →
          settings'.config.Extends settings.config fs' fs → settings'.base = settings.base →
            (∀ cause, ¬ (settings'.ignoreTest fs').Unanswered findings cause) →
              (run args input fs).exitCode = 0 → (run args' input' fs').exitCode = 0 := by
  refine ⟨?_, h.exitCode_eq_one_iff input, ?_, ?_, ?_⟩
  · rw [h.exitCode_run]
    exact exitCodeOf_eq_zero_or_one _
  · rintro cause ⟨name, -, hanswer⟩
    exact (Config.exists_of_ignoreTest_eq_error hanswer).imp (fun hfile => ⟨name, hfile⟩) id
  · intro args' input' options' settings' findings' h' hpath hrules hraises hcode
    obtain ⟨rfl, rfl⟩ := h.eq_of_path_eq h' hpath hrules
    obtain ⟨hfails, hanswered⟩ := (h.exitCode_eq_zero_iff input).1 hcode
    refine (h'.exitCode_eq_zero_iff input').2 ⟨fun hfails' => hfails ?_, hanswered⟩
    exact hfails'.of_raises hraises (.refl _ _) rfl hanswered
  · intro args' input' fs' options' settings' h' hraises hextends hbase hanswered hcode
    obtain ⟨hfails, -⟩ := (h.exitCode_eq_zero_iff input).1 hcode
    refine (h'.exitCode_eq_zero_iff input').2 ⟨fun hfails' => hfails ?_, hanswered⟩
    exact hfails'.of_raises hraises hextends hbase hanswered

end Console

end Libraries

/-- A project with a script that holds a password. -/
def passwordFiles (more : List (String × Node)) : FileSystem where
  root := .dir
    (("src", .dir [("a.js", .file "const password = \"hunter2\";\n".toUTF8)]) :: more)

def passwordOptions : ScanOptions :=
  { path := ⟨.here, ["src"]⟩, format := .json, failOn := some .high }

def passwordSettings : Settings := { base := some ⟨.slash, ["src"]⟩ }

def passwordFindings : Findings :=
  ⟨[("password", { suggested := [⟨"src/a.js", some "hunter2", some .critical⟩] })]⟩

open scoped Libraries in
theorem exitCode_of_scans_passwordFiles :
    Scans ["scan", "src", "--format", "json", "--fail-on", "high"] (passwordFiles []) passwordOptions
        passwordSettings passwordFindings ∧
      (run ["scan", "src", "--format", "json", "--fail-on", "high"] [] (passwordFiles [])).exitCode = 1 := by
  have hload : ∃ found, (Settings.load {} (passwordFiles []) passwordOptions.path).value =
      (passwordSettings, .ok found) := by
    have hproject : Settings.projectOf (passwordFiles []) passwordOptions.path =
        .ok ⟨.slash, ["src"]⟩ := by decide +kernel
    have hcwd : (passwordFiles []).resolve ⟨.here, []⟩ = .ok ⟨.slash, []⟩ := by decide +kernel
    have hnone : Settings.firstExisting (passwordFiles [])
        (Settings.candidates ⟨.slash, ["src"]⟩ ⟨.slash, []⟩) = .ok none := by
      decide +kernel
    exact ⟨_, Settings.value_load hproject hcwd hnone (by simp)⟩
  have hscans : Scans ["scan", "src", "--format", "json", "--fail-on", "high"] (passwordFiles [])
      passwordOptions passwordSettings passwordFindings :=
    ⟨⟨{}, by decide +kernel⟩, rfl, rfl, hload, by rintro _ ⟨⟩, by rintro _ ⟨⟩, by decide +kernel,
      by rintro _ ⟨⟩⟩
  have hfails : Fails passwordOptions (passwordFiles []) passwordSettings passwordFindings := by
    have hsuggested : (passwordFindings.get "password").suggested ≠ [] := by decide
    refine ⟨.high, rfl, "password", rfl, hsuggested, ?_, _, Entry.isGreatest_maxSeverity? hsuggested, ?_⟩
    · exact Report.leavesOut_eq_false_iff.1 (by decide +kernel)
    · decide +kernel
  exact ⟨hscans, (exitCode_of_scans hscans []).2.1.2 (.inl hfails)⟩

open scoped Libraries in
/-- An entry with the character that no path can hold is loaded without complaint.  The scan then ends
early with the exit code one, with no severity to fail on and no file that the system has refused. -/
theorem exitCode_of_null_entry :
    let fs := passwordFiles [(".env-guardian.yaml", .file "ignore:\n  files: [\"a\\0\"]\n".toUTF8)]
    let ending := run ["scan", "src", "--format", "json"] [] fs
    Request.read fs ["scan", "src", "--format", "json"] =
        .ok (.run {} (.scan { path := ⟨.here, ["src"]⟩, format := .json })) ∧
      (Settings.load {} fs ⟨.here, ["src"]⟩).value.2.isOk = true ∧
        (Settings.load {} fs ⟨.here, ["src"]⟩).value.1.config.ruleFiles = [] ∧
          ending.exitCode = 1 ∧ ending.error.map (·.message) = some "embedded null byte" := by
  decide +kernel

end CommandLine

end EnvAudit
