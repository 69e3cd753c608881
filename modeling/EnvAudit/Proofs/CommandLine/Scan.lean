import EnvAudit.CommandLine.Run
import EnvAudit.Proofs.CommandLine.Act
import EnvAudit.Proofs.Config.Unconfigured
import EnvAudit.Proofs.Dotenv.Append
import EnvAudit.Proofs.TreeScan.Evolved

/-!
# What a scan leaves behind

A scan from the command line writes to at most two files: that of its report, and behind it the
environment file.  Whatever stops it, it has not written to the environment file then.
-/

namespace EnvAudit.CommandLine

open Act TreeScan FileScan

variable {options : ScanOptions} {loudness : Loudness} {fs fs' : FileSystem}
variable {settings : Settings} {findings : Findings} {engine : Engine}

/-- The file that the report is written to. -/
def ScanOptions.reportFile? (options : ScanOptions) : Option Path :=
  match options.format with
  | .terminal => none
  | .json => options.output

/-- The environment file in the working directory. -/
def envPath (fs : FileSystem) : Path := fs.cwdPath / Path.ofString Request.defaultEnvFile

/-- Files before and after a report is shown. -/
def Reported (options : ScanOptions) (fs fs' : FileSystem) : Prop :=
  match options.reportFile? with
  | none => fs' = fs
  | some target => ∃ text, fs.write target text = .ok fs'

/-! ## The steps of a scan -/

/-- The report is that of the ignore test of the settings, with some threshold. -/
theorem reads_reportOn : Reads fs (reportOn options settings findings) fun report =>
    ∃ threshold, (settings.ignoreTest fs).report findings threshold = .ok report := by
  have hrest : ∀ threshold, Reads fs
      (do file ((settings.ignoreTest (← files)).report findings threshold)) fun report =>
        ∃ threshold, (settings.ignoreTest fs).report findings threshold = .ok report := by
    intro threshold
    apply gives_files_bind
    exact (reads_file _).imp fun _ hreport => ⟨threshold, hreport⟩
  rw [reportOn]
  split
  · exact hrest _
  · exact gives_logged_bind (hrest _)

/-- How adding to the environment file ends. -/
inductive EnvFileEnds (fs : FileSystem) (findings : Findings) :
    Except Failure Unit → FileSystem → Prop
  /-- The file is added to, if there is anything to add; only then the end is certain. -/
  | extended {result : Except Failure Unit} {outcome : Dotenv.Outcome}
      (hextended : Dotenv.append fs (envPath fs) findings .nothing = .ok outcome)
      (h : outcome.written ≠ [] → result = .ok ()) :
      EnvFileEnds fs findings result outcome.fileSystem
  | refused {failure : Failure} {cause : FileError}
      (hrefused : Dotenv.append fs (envPath fs) findings .nothing = .error cause) :
      EnvFileEnds fs findings (.error failure) fs

section Console

variable [Terminal.Console]

theorem reads_announce : Reads fs (announce options loudness) fun _ => True := by
  rw [announce]
  split
  · exact reads_print _
  · exact reads_pure trivial

theorem reads_findingsOf (h : settings.config = {}) (hpath : options.path = ⟨.here, []⟩)
    {entries : List (String × Node)} (hentries : fs.HoldsDir ⟨.here, []⟩ entries) :
    Reads fs (findingsOf options loudness settings engine) fun found =>
      found.1 = mergeFound engine fs (walkOrder fs (TreeScan.skips []) ⟨.here, []⟩ entries) ∧
        Answers fs (TreeScan.skips []) ⟨.here, []⟩ entries := by
  have hscan := Scanner.value_scan { engine, excluded := settings.config.excludedDirs } hentries
  rw [findingsOf]
  refine Reads.seq reads_announce fun _ _ => ?_
  refine gives_files_bind (gives_logged_bind ?_)
  rw [hpath, hscan, h]
  apply Reads.seq (reads_file _)
  intro found hfound
  obtain ⟨_, hended, rfl⟩ := map_eq_ok_iff.1 hfound
  exact reads_pure ⟨rfl, ending_walk_iff.1 hended⟩

theorem gives_showReport {report : Report} {scannedFiles : Nat} :
    Gives fs (showReport options loudness report findings scannedFiles) fun result fs' =>
      (result = .ok () ∧ Reported options fs fs') ∨ (∃ cause, result = .error cause) ∧ fs' = fs := by
  have hecho : ∀ text, options.reportFile? = none →
      Gives fs (echo text) fun result fs' =>
        (result = .ok () ∧ Reported options fs fs') ∨ (∃ cause, result = .error cause) ∧ fs' = fs := by
    intro text hnone
    refine (gives_echo text).weaken ?_
    rintro _ _ ⟨rfl, rfl⟩
    refine .inl ⟨rfl, ?_⟩
    rw [Reported, hnone]
  rw [showReport]
  apply gives_files_bind
  refine gives_file_bind (fun isDir _ => ?_) fun _ _ => .inr ⟨⟨_, rfl⟩, rfl⟩
  generalize (if isDir then options.path else options.path.parent).toString = scanned
  cases hformat : options.format with
  | terminal =>
      have hnone : options.reportFile? = none := by rw [ScanOptions.reportFile?, hformat]
      dsimp only
      refine Returns.bind (gives_echo _) ?_
      split
      · exact gives_throw (.inr ⟨⟨_, rfl⟩, rfl⟩)
      · refine gives_pure (.inl ⟨rfl, ?_⟩)
        rw [Reported, hnone]
  | json =>
      have htarget : options.reportFile? = options.output := by
        rw [ScanOptions.reportFile?, hformat]
      cases houtput : options.output with
      | none => exact hecho _ (htarget.trans houtput)
      | some target =>
          refine gives_file_bind ?_ fun _ _ => .inr ⟨⟨_, rfl⟩, rfl⟩
          intro fs' hwrite
          refine gives_setFiles (.inl ⟨rfl, ?_⟩)
          rw [Reported, htarget, houtput]
          exact ⟨_, hwrite⟩

/-- What is told about added suggestions can be printed. -/
theorem printable_added (count : Nat) :
    Terminal.Printable s!"[yellow]Added {count} suggestion(s) to {Request.defaultEnvFile}[/yellow]" := by
  change Terminal.Printable
    ("[yellow]Added " ++ toString count ++ " suggestion(s) to " ++ ".env" ++ "[/yellow]")
  rw [String.append_assoc, String.append_assoc]
  have hinner : Terminal.Bare ("Added " ++ toString count ++ " suggestion(s) to .env") :=
    ((show Terminal.Bare "Added " by decide).append (Terminal.bare_toString count)).append (by decide)
  exact .of_line "yellow" "Added " " suggestion(s) to .env" (by decide) (by decide) (by decide)
    (.of_bare hinner)

theorem gives_extendEnvFile [Terminal.LawfulConsole] (h : settings.config = {}) :
    Gives fs (extendEnvFile Request.defaultEnvFile loudness settings findings)
      (EnvFileEnds fs findings) := by
  rw [extendEnvFile]
  apply gives_files_bind
  rw [Settings.ignoreTest_eq_nothing h, ← envPath]
  apply gives_file_bind
  · intro outcome hextended
    apply gives_setFiles_bind
    apply gives_logged_bind
    split
    · refine (gives_print_of_printable (printable_added outcome.written.length)).weaken ?_
      rintro _ _ ⟨rfl, rfl⟩
      exact .extended hextended fun _ => rfl
    · rename_i hempty
      have hnil : outcome.written = [] := by simpa using hempty
      split
      · refine Gives.weaken (reads_print _) ?_
        rintro _ _ ⟨rfl, -⟩
        exact .extended hextended fun hne => absurd hnil hne
      · exact gives_pure (.extended hextended fun _ => rfl)
  · intro cause hrefused
    exact .refused hrefused

end Console

/-! ## The end of a scan -/

/-- The scan has come to its end and tells by its exit code what the report reaches. -/
def Completed (result : Except Failure Nat) : Prop := result = .ok 0 ∨ result = .ok 1

theorem not_completed_error (cause : Failure) : ¬ Completed (.error cause) := by
  rintro (heq | heq) <;> cases heq

section Rules

variable [Yaml.Library] [Pattern.Compiler]

/-- The rules of the files that the options name. -/
def ScanOptions.rulesIn (options : ScanOptions) (fs : FileSystem) :
    Except DocumentError (List FileRule) :=
  (RuleFile.loadAll fs options.ruleFiles).value

theorem reads_engineFor (h : settings.config = {}) (more : List Path) :
    Reads fs (engineFor settings.config more) fun engine =>
      ∃ rules, (RuleFile.loadAll fs more).value = .ok rules ∧ engine = Config.engineWith rules := by
  rw [engineFor]
  apply gives_files_bind
  apply gives_logged_bind
  apply Reads.seq (reads_document _)
  intro configured hconfigured
  apply gives_logged_bind
  apply Reads.seq (reads_document _)
  intro rules hrules
  have hnone : configured = [] := by
    rw [h] at hconfigured
    exact (Except.ok.inj hconfigured).symm
  rw [hnone]
  exact reads_pure ⟨rules, hrules, rfl⟩

/-- The findings of a scan with default settings are those of the files that it reaches. -/
structure Found (options : ScanOptions) (fs : FileSystem) (findings : Findings) : Prop where
  wellFormed : findings.WellFormed
  suggested_iff : ∃ rules entries, options.rulesIn fs = .ok rules ∧
    fs.HoldsDir ⟨.here, []⟩ entries ∧
      ∀ name, (findings.get name).suggested ≠ [] ↔
        ∃ p, Scanned fs (TreeScan.skips []) ⟨.here, []⟩ entries p ∧
          Suggests (Config.engineWith rules) fs p name

/-- How a scan ends: with which result, and with which files. -/
inductive ScanEnds (options : ScanOptions) (fs : FileSystem) :
    Except Failure Nat → FileSystem → Prop
  /-- It is stopped before anything is written. -/
  | stopped {result : Except Failure Nat} (h : ¬ Completed result) : ScanEnds options fs result fs
  /-- The environment file cannot be added to. -/
  | refused {result : Except Failure Nat} {findings : Findings} {fs' : FileSystem}
      {cause : FileError} (hfound : Found options fs findings)
      (hreported : Reported options fs fs')
      (hrefused : Dotenv.append fs' (envPath fs') findings .nothing = .error cause)
      (h : ¬ Completed result) : ScanEnds options fs result fs'
  /-- The environment file is added to, if there is anything to add. -/
  | extended {result : Except Failure Nat} {findings : Findings} {fs' : FileSystem}
      {outcome : Dotenv.Outcome} (hfound : Found options fs findings)
      (hreported : Reported options fs fs')
      (hextended : Dotenv.append fs' (envPath fs') findings .nothing = .ok outcome)
      (h : outcome.written ≠ [] → Completed result) : ScanEnds options fs result outcome.fileSystem

/-- A failure can be told about in any way. -/
theorem ScanEnds.of_error {cause : Failure} {result : Except Failure Nat}
    (h : ScanEnds options fs (.error cause) fs') (hresult : ¬ Completed result) :
    ScanEnds options fs result fs' := by
  cases h with
  | stopped _ => exact .stopped hresult
  | refused hfound hreported hrefused _ => exact .refused hfound hreported hrefused hresult
  | extended hfound hreported hextended hcompleted =>
      exact .extended hfound hreported hextended fun hne => absurd (hcompleted hne) (not_completed_error cause)

/-- What the walk reaches is put together. -/
theorem found_mergeFound {rules : List FileRule} {entries : List (String × Node)}
    (hrules : options.rulesIn fs = .ok rules) (hentries : fs.HoldsDir ⟨.here, []⟩ entries)
    (hanswers : Answers fs (TreeScan.skips []) ⟨.here, []⟩ entries) :
    Found options fs (mergeFound (Config.engineWith rules) fs
      (walkOrder fs (TreeScan.skips []) ⟨.here, []⟩ entries)) := by
  have hlists : Lists fs (TreeScan.skips []) ⟨.here, []⟩ entries
      (walkOrder fs (TreeScan.skips []) ⟨.here, []⟩ entries) := lists_walkOrder hentries hanswers
  have hholds := holds_mergeFound (Config.engineWith rules) fs
    (walkOrder fs (TreeScan.skips []) ⟨.here, []⟩ entries)
  refine ⟨hholds.wellFormed, rules, entries, hrules, hentries, fun name => ?_⟩
  rw [hholds.suggested_ne_nil_iff]
  simp only [Finset.mem_biUnion, List.mem_toFinset, hlists.mem_iff, suggests_iff]
  constructor
  · rintro ⟨s, p, hp, hs⟩
    exact ⟨p, hp, s, hs⟩
  · rintro ⟨p, hp, s, hs⟩
    exact ⟨s, p, hp, hs⟩

/-- With the environment file the scan ends, whatever the exit code is. -/
theorem EnvFileEnds.scanEnds_of_error {cause : Failure} {fs'' : FileSystem}
    (h : EnvFileEnds fs' findings (.error cause) fs'') (hfound : Found options fs findings)
    (hreported : Reported options fs fs') : ScanEnds options fs (.error cause) fs'' := by
  cases h with
  | extended hextended hresult =>
      apply ScanEnds.extended hfound hreported hextended
      intro hne
      cases hresult hne
  | refused hrefused =>
      exact .refused hfound hreported hrefused (not_completed_error cause)

theorem EnvFileEnds.scanEnds_of_ok {fs'' : FileSystem} {result : Except Failure Nat}
    (h : EnvFileEnds fs' findings (.ok ()) fs'') (hfound : Found options fs findings)
    (hreported : Reported options fs fs') (hresult : Completed result) :
    ScanEnds options fs result fs'' := by
  cases h with
  | extended hextended _ => exact .extended hfound hreported hextended fun _ => hresult

section Console

variable [Terminal.Console]

theorem reads_prepare (hfs : fs.Sound) (h : Settings.Unconfigured fs)
    (hpath : options.path = ⟨.here, []⟩) :
    Reads fs (prepare options loudness) fun prepared =>
      prepared.1.config = {} ∧
        ∃ rules, options.rulesIn fs = .ok rules ∧ prepared.2 = Config.engineWith rules := by
  rw [prepare]
  have hsettings : Reads fs (settingsFor options.path) (·.1 = { base := some fs.cwdPath }) := by
    rw [settingsFor, hpath]
    apply gives_files_bind
    apply gives_logged_bind
    apply Reads.seq (reads_document _)
    intro loaded _
    exact reads_pure (h.fst_value_load hfs)
  apply Reads.seq hsettings
  rintro ⟨_, loaded⟩ rfl
  apply Reads.seq (reads_engineFor rfl options.ruleFiles)
  rintro engine ⟨rules, hrules, rfl⟩
  exact reads_pure ⟨rfl, rules, hrules, rfl⟩

variable [Terminal.LawfulConsole]

theorem gives_scanPath (hfs : fs.Sound) (h : Settings.Unconfigured fs)
    (hpath : options.path = ⟨.here, []⟩) (henv : options.envFile = some Request.defaultEnvFile) :
    Gives fs (scanPath options loudness) (ScanEnds options fs) := by
  obtain ⟨entries, hcwd⟩ := hfs.hasCwd
  have hentries : fs.HoldsDir ⟨.here, []⟩ entries :=
    FileSystem.holdsDir_of_no_parts .here hcwd (hfs.wellFormed.at? hcwd).1
  have hstopped : ∀ cause, ScanEnds options fs (.error cause) fs := by
    intro cause
    exact .stopped (not_completed_error cause)
  rw [scanPath]
  refine Reads.bind (reads_prepare hfs h hpath) ?_ hstopped
  rintro ⟨settings, _⟩ ⟨hconfig, rules, hrules, rfl⟩
  refine Reads.bind (reads_findingsOf hconfig hpath hentries) ?_ hstopped
  rintro ⟨_, scannedFiles⟩ ⟨rfl, hanswers⟩
  refine Reads.bind reads_reportOn ?_ hstopped
  intro report _
  have hfound := found_mergeFound hrules hentries hanswers
  refine Gives.bind gives_showReport ?_ ?_
  · rintro _ fs' (⟨-, hreported⟩ | ⟨⟨_, heq⟩, -⟩)
    · rw [henv]
      refine Gives.bind (gives_extendEnvFile hconfig) ?_ ?_
      · intro _ fs'' hends
        apply gives_pure
        apply hends.scanEnds_of_ok hfound hreported
        split
        · exact .inr rfl
        · exact .inl rfl
      · intro cause fs'' hends
        exact hends.scanEnds_of_error hfound hreported
    · cases heq
  · rintro cause fs' (⟨heq, -⟩ | ⟨-, rfl⟩)
    · cases heq
    · exact hstopped cause

/-- However a scan without configuration ends, it ends in one of these ways. -/
theorem gives_scan (hfs : fs.Sound) (h : Settings.Unconfigured fs)
    (hpath : options.path = ⟨.here, []⟩) (henv : options.envFile = some Request.defaultEnvFile) :
    Gives fs (scan options loudness) (ScanEnds options fs) := by
  rw [scan]
  refine Gives.handled (gives_scanPath hfs h hpath henv) (fun _ _ hends => hends) ?_
  intro cause fs' hends
  split
  · apply gives_logged_bind
    refine Reads.bind (reads_print _) ?_ fun _ => hends.of_error (not_completed_error _)
    intro _ _
    refine gives_pure (hends.of_error ?_)
    rintro (heq | heq) <;> cases heq
  · exact gives_throw hends

end Console

end Rules

end EnvAudit.CommandLine
