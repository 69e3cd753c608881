import EnvAudit.Proofs.CommandLine.Edit
import EnvAudit.Proofs.CommandLine.Scan
import EnvAudit.Proofs.Terminal.Wrapped

/-!
# Scanning after a file was ignored

The command that ignores files writes each of them as it is seen from the working directory of the
command.  A later scan takes what is written from its own working directory and from the directory of
its project.  The file stays out of the report if the entry leads to it from one of these, and in
particular if one of these is the directory of the command; from any other directory the entry leads
somewhere else.
-/

namespace EnvAudit.CommandLine

open Act

variable {fs later : FileSystem} {names : List String} {options : ScanOptions} {loudness : Loudness}
  {spelling entry : String} {goal : Path} {node : Node}

/-! ## What is written and where it leads -/

/-- What is written for a file: its spelling if that looks like a glob, and else the way to the file. -/
def entryFor (fs : FileSystem) (spelling : String) (goal : Path) : String :=
  if isGlob spelling then spelling
  else Path.toString ⟨.here, Path.stepsBetween fs.cwd goal.parts⟩

theorem ignoreEntry_eq_entryFor (hfs : fs.Sound) (hspelling : fs.Denotes spelling goal)
    (hgoal : ∀ name ∈ goal.parts, ValidName name) :
    ignoreEntry fs spelling = .ok (entryFor fs spelling goal) := by
  rw [ignoreEntry, entryFor]
  split
  · rfl
  · have hplace : goal = ⟨.slash, goal.parts⟩ :=
      congrArg (Path.mk · goal.parts) (FileSystem.root_of_resolve hspelling.2)
    have hway := Path.relativeTo_eq fs.cwdPath hfs.validName_cwd hgoal
    rw [hspelling.2, hfs.resolve_here, ← hway, ← hplace]
    rfl

theorem entryFor_ne_empty (hspelling : fs.Denotes spelling goal)
    (hgoal : ∀ name ∈ goal.parts, ValidName name) : entryFor fs spelling goal ≠ "" := by
  rw [entryFor]
  split
  · exact hspelling.1
  · exact Path.toString_here_ne_empty
      (Path.pathName_stepsBetween fun name hname => (hgoal name hname).pathName)

/-- From the working directory of the command, what it writes for a file leads to the file. -/
theorem leadsTo_entryFor (hfs : fs.Sound) (hspelling : fs.Denotes spelling goal)
    (hat : fs.root.at? goal.parts = some node) (hnode : ∀ t, node ≠ .link t) :
    fs.LeadsTo fs.cwdPath (entryFor fs spelling goal) goal := by
  rw [hfs.leadsTo_cwdPath_iff, entryFor]
  split
  · exact hspelling.2
  · have hgoal := (hfs.wellFormed.at? hat).2
    have hplace : goal = ⟨.slash, goal.parts⟩ :=
      congrArg (Path.mk · goal.parts) (FileSystem.root_of_resolve hspelling.2)
    rw [Path.ofString_toString_here
      (Path.pathName_stepsBetween fun name hname => (hgoal name hname).pathName),
      hfs.resolve_stepsBetween hat hnode, ← hplace]

/-! ## What the command leaves -/

section Libraries

variable [Yaml.Library]

/-- The settings that a command finds where it works. -/
def settingsIn (fs : FileSystem) : Settings := (Settings.load {} fs fs.cwdPath).value.1

/-- The file that a command saves the configuration to. -/
def configFile (fs : FileSystem) : Path := (settingsIn fs).target fs none

/-- What the command that ignores files makes of the configuration. -/
def ignoring (fs : FileSystem) (names : List String) : Config :=
  (Edit.ignoreFiles names).apply fs (settingsIn fs).config

theorem reads_settingsHere : Reads fs settingsHere fun settings =>
    settings = settingsIn fs ∧ ∃ found, (Settings.load {} fs fs.cwdPath).value = (settings, .ok found) := by
  rw [settingsHere]
  apply gives_files_bind
  have hsettings : Reads fs (settingsFor fs.cwdPath) fun loaded =>
      loaded.1 = settingsIn fs ∧ (Settings.load {} fs fs.cwdPath).value = (loaded.1, .ok loaded.2) := by
    rw [settingsFor]
    apply gives_files_bind
    apply gives_logged_bind
    rw [settingsIn]
    generalize (Settings.load {} fs fs.cwdPath).value = loaded
    obtain ⟨settings, found⟩ := loaded
    refine (reads_document found).seq fun _ hfound => ?_
    exact reads_pure ⟨rfl, Prod.ext rfl hfound⟩
  refine hsettings.seq ?_
  rintro loaded ⟨heq, hload⟩
  exact reads_pure ⟨heq, loaded.2, hload⟩

theorem gives_saveSettings_of_error [Terminal.Console] {settings : Settings} {cause : FileError}
    (hsave : settings.save fs none = .error cause) :
    Gives fs (saveSettings settings) fun result _ => ∃ failure, result = .error failure := by
  rw [saveSettings]
  apply gives_files_bind
  apply gives_file_bind
  · intro saved hsaved
    cases hsave.symm.trans hsaved
  · exact fun _ _ => ⟨_, rfl⟩

/-- If the command succeeds, all files were looked up and the configuration was written. -/
theorem gives_ignoreFiles [Terminal.Console] [Terminal.LawfulConsole] (names : List String) :
    Gives fs (ignoreFiles names) fun result after => ∀ code, result = .ok code →
      (∃ found, (Settings.load {} fs fs.cwdPath).value = (settingsIn fs, .ok found)) ∧
        (names.mapM (ignoreEntry fs)).isOk = true ∧
          fs.write (configFile fs) (ignoring fs names).toText = .ok after := by
  rw [ignoreFiles]
  refine reads_settingsHere.bind ?_ (by rintro _ _ ⟨⟩)
  rintro settings ⟨rfl, hload⟩
  apply gives_files_bind
  refine gives_file_bind ?_ (by rintro _ _ _ ⟨⟩)
  intro entries hentries
  rw [Config.ignoreFiles, Config.addNew_eq]
  dsimp only
  refine Returns.bind (returns_forIn fun entry _ => Edit.returns_fileLine _ entry) ?_
  have hconfig : ignoring fs names =
      { (settingsIn fs).config with
        ignoredFiles := (settingsIn fs).config.ignoredFiles ++
          Config.newEntries (settingsIn fs).config.ignoredFiles entries } := by
    rw [ignoring, Edit.apply, hentries]
  rw [← hconfig]
  cases hsave : { settingsIn fs with config := ignoring fs names }.save fs none with
  | error cause =>
      refine (gives_saveSettings_of_error hsave).bind ?_ ?_
      · rintro _ _ ⟨_, heq⟩
        cases heq
      · rintro _ _ _ _ ⟨⟩
  | ok saved =>
      obtain ⟨settings', after, target⟩ := saved
      obtain ⟨rfl, hwrite, -⟩ := Settings.save_eq_ok_iff.1 hsave
      refine Gives.weaken (P := fun _ fs' => fs' = after) ?_ ?_
      · exact Edit.gives_saveSettings_bind hsave (R := fun _ => True) (reads_pure trivial)
      · rintro _ _ rfl _ _
        exact ⟨hload, by rw [hentries]; rfl, hwrite⟩

/-! ## What is saved and loaded -/

/-- What is written for a file is among the entries that are saved. -/
theorem mem_ignoredFiles_ignoring (hnamed : spelling ∈ names)
    (hok : (names.mapM (ignoreEntry fs)).isOk = true)
    (hentry : ignoreEntry fs spelling = .ok entry) (htrimmed : Text.trimmed entry = entry)
    (hne : entry ≠ "") : entry ∈ (ignoring fs names).ignoredFiles := by
  obtain ⟨entries, hentries⟩ := isOk_iff.1 hok
  have hmem : entry ∈ entries := mem_of_mapM_eq_ok hentries hnamed hentry
  rw [ignoring, Edit.apply, hentries]
  exact Config.mem_append_newEntries.2 (.inr ⟨List.mem_map.2 ⟨entry, hmem, htrimmed⟩, hne⟩)

/-- Settings that are loaded from the file that the command wrote are those that it made. -/
theorem config_of_loadedFrom {path : Path} {settings : Settings} {found hadFound : Bool}
    {after : FileSystem} (hfs : fs.Sound) (hback : Yaml.ReadsBack (ignoring fs names).document)
    (hhere : (Settings.load {} fs fs.cwdPath).value = (settingsIn fs, .ok hadFound))
    (hwrite : fs.write (configFile fs) (ignoring fs names).toText = .ok after)
    (hkept : later.bytes? (configFile fs) = after.bytes? (configFile fs))
    (hload : (Settings.load {} later path).value = (settings, .ok found))
    (hfrom : settings.loadedFrom = some (configFile fs)) :
    settings.config.anywhere = (ignoring fs names).anywhere := by
  have hlevel : (ignoring fs names).minSeverity ≠ "" := by
    apply Edit.minSeverity_apply
    obtain ⟨source?, -, heq⟩ := Settings.value_load_cwdPath hfs hhere
    rw [heq]
    exact Settings.minSeverity_takeOver _ _
  have hbytes : later.bytes? (configFile fs) = some (ignoring fs names).toText.toUTF8 := by
    rw [hkept]
    exact (FileSystem.write_eq_ok_iff.1 hwrite).bytes?_self hfs
  have hfile := Settings.value_readFile_of_bytes? hlevel hback hbytes
  obtain ⟨-, hconfig⟩ := Settings.value_readFile_eq_ok_iff.1 hfile
  rw [Settings.configIn?_of_loadedFrom hload hfrom] at hconfig
  rw [← Option.some.inj hconfig]
  rfl

variable [Pattern.Compiler] [Terminal.Console]

theorem write_of_ran [Terminal.LawfulConsole] {told : Loudness} {code : Nat}
    (hran : (((Edit.ignoreFiles names).command.perform told).run.run { fs }).1 = .ok code) :
    (∃ found, (Settings.load {} fs fs.cwdPath).value = (settingsIn fs, .ok found)) ∧
      (names.mapM (ignoreEntry fs)).isOk = true ∧
        fs.write (configFile fs) (ignoring fs names).toText =
          .ok ((Edit.ignoreFiles names).filesAfter told fs) :=
  gives_ignoreFiles names { fs } rfl code hran

/-! ## What a later scan reports -/

/-- What a scan knows when it comes to show its report. -/
structure Examination where
  settings : Settings
  findings : Findings
  scannedFiles : Nat
  report : Report

/-- A scan up to its report. -/
def examine (options : ScanOptions) (loudness : Loudness) : Act Examination := do
  let (settings, engine) ← prepare options loudness
  let (findings, scannedFiles) ← findingsOf options loudness settings engine
  let report ← reportOn options settings findings
  return { settings, findings, scannedFiles, report }

/-- The report that a scan shows is the one that it comes to. -/
theorem scanPath_eq (options : ScanOptions) (loudness : Loudness) :
    scanPath options loudness = do
      let seen ← examine options loudness
      showReport options loudness seen.report seen.findings seen.scannedFiles
      match options.envFile with
      | some name => extendEnvFile name loudness seen.settings seen.findings
      | none => pure ()
      return if reaches seen.report options.failOn then 1 else 0 := by
  rw [scanPath, examine]
  cases options.envFile <;> simp only [bind_assoc, pure_bind]

omit [Terminal.Console] in
theorem reads_engineFor_of_any (config : Config) (more : List Path) :
    Reads fs (engineFor config more) fun _ => True := by
  rw [engineFor]
  apply gives_files_bind
  apply gives_logged_bind
  refine (reads_document _).seq fun _ _ => gives_logged_bind ?_
  exact (reads_document _).seq fun _ _ => reads_pure trivial

/-- A scan is prepared with the settings that are loaded for its path. -/
theorem reads_prepare_of_load {settings : Settings} {found : Bool}
    (hload : (Settings.load {} fs options.path).value = (settings, .ok found)) :
    Reads fs (prepare options loudness) (·.1 = settings) := by
  have hengine : Reads fs (do return (settings, ← engineFor settings.config options.ruleFiles))
      (·.1 = settings) :=
    (reads_engineFor_of_any _ _).seq fun _ _ => reads_pure rfl
  rw [prepare]
  refine (returns_settingsFor hload).bind ?_
  dsimp only
  split
  · split
    · exact (reads_print _).seq fun _ _ => hengine
    · exact hengine
  · exact hengine

omit [Yaml.Library] [Pattern.Compiler] in
theorem reads_findingsOf_of_any (settings : Settings) (engine : Engine) :
    Reads fs (findingsOf options loudness settings engine) fun _ => True := by
  rw [findingsOf]
  refine reads_announce.seq fun _ _ => gives_files_bind (gives_logged_bind ?_)
  exact (reads_file _).seq fun _ _ => reads_pure trivial

/-- A scan does not report a file to which an entry of its settings leads. -/
theorem reads_examine_of_leadsTo {settings : Settings} {found : Bool} {dir goal : Path} {entry : String}
    (hfs : fs.Sound) (hload : (Settings.load {} fs options.path).value = (settings, .ok found))
    (hdir : dir = fs.cwdPath ∨ settings.base = some dir) (hleads : fs.LeadsTo dir entry goal)
    (hentry : entry ∈ settings.config.ignoredFiles) :
    Reads fs (examine options loudness) fun seen =>
      ∀ v ∈ seen.report.suggested, ∀ file ∈ v.files, ¬ fs.Denotes file goal := by
  rw [examine]
  refine (reads_prepare_of_load hload).seq ?_
  rintro ⟨_, engine⟩ rfl
  refine (reads_findingsOf_of_any _ engine).seq ?_
  rintro ⟨findings, scannedFiles⟩ -
  refine reads_reportOn.seq ?_
  rintro report ⟨threshold, hreport⟩
  apply reads_pure
  intro v hv file hfile hgoal
  exact IgnoreTest.not_ignores_of_mem_suggested hreport hv
    (Settings.ignores_of_leadsTo hfs hdir hleads hentry hfile hgoal)

/-- A file is named to the command that ignores files, and the command succeeds.  Whenever a scan takes
its settings from the file that was saved, wherever it works and whatever it scans, it suggests nothing
that was found in the ignored file, provided that the entry leads to that file from the working
directory of the scan or from that of its project.  From the working directory of the command it always
does. -/
theorem unreported_of_ignoreFiles [Terminal.LawfulConsole] {loaded : Settings} {found : Bool}
    {dir : Path} {code : Nat} {told : Loudness} (hfs : fs.Sound) (hspelling : fs.Denotes spelling goal)
    (hat : fs.root.at? goal.parts = some node) (hnode : ∀ t, node ≠ .link t)
    (hnamed : spelling ∈ names) (hentry : ignoreEntry fs spelling = .ok entry)
    (htrimmed : Text.trimmed entry = entry)
    (hran : (((Edit.ignoreFiles names).command.perform told).run.run { fs }).1 = .ok code)
    (hback : Yaml.ReadsBack (ignoring fs names).document) (hlater : later.Sound)
    (hkept : later.bytes? (configFile fs) =
      ((Edit.ignoreFiles names).filesAfter told fs).bytes? (configFile fs))
    (hload : (Settings.load {} later options.path).value = (loaded, .ok found))
    (hfrom : loaded.loadedFrom = some (configFile fs))
    (hdir : dir = later.cwdPath ∨ loaded.base = some dir)
    (hleads : dir = fs.cwdPath ∧ fs.root.Evolves later.root ∨ later.LeadsTo dir entry goal) :
    Reads later (examine options loudness) fun seen =>
      ∀ v ∈ seen.report.suggested, ∀ file ∈ v.files, ¬ later.Denotes file goal := by
  have hgoal := (hfs.wellFormed.at? hat).2
  obtain rfl : entryFor fs spelling goal = entry :=
    Except.ok.inj ((ignoreEntry_eq_entryFor hfs hspelling hgoal).symm.trans hentry)
  obtain ⟨⟨hadFound, hhere⟩, hok, hwrite⟩ := write_of_ran hran
  have hconfig := config_of_loadedFrom hfs hback hhere hwrite hkept hload hfrom
  have hmem : entryFor fs spelling goal ∈ loaded.config.ignoredFiles := by
    change _ ∈ loaded.config.anywhere.ignoredFiles
    rw [hconfig]
    exact mem_ignoredFiles_ignoring hnamed hok hentry htrimmed (entryFor_ne_empty hspelling hgoal)
  have hlaterLeads : later.LeadsTo dir (entryFor fs spelling goal) goal := by
    rcases hleads with ⟨rfl, hevolves⟩ | hleads
    · exact (leadsTo_entryFor hfs hspelling hat hnode).of_evolves rfl hevolves
    · exact hleads
  exact reads_examine_of_leadsTo hlater hload hdir hlaterLeads hmem

end Libraries

/-- A project with a configuration file at its top and a password further down. -/
def legacyFiles : FileSystem where
  root := .dir [("project", .dir [
    (".env-guardian.yaml", .file "ignore:\n".toUTF8),
    ("src", .dir [("legacy", .dir [
      ("config.js", .file "const dbPassword = \"hunter2\";\n".toUTF8)])])])]
  cwd := ["project", "src", "legacy"]

def legacyConfig : Path := ⟨.slash, ["project", "src", "legacy", "config.js"]⟩

open scoped Libraries

/-- What a scan from the top of the project works on, after the file was ignored further down. -/
def legacyIgnored : FileSystem :=
  ((Edit.ignoreFiles ["config.js"]).filesAfter {} legacyFiles).workedFrom ["project"]

theorem sound_legacyFiles : legacyFiles.Sound := by decide

theorem ran_legacyFiles :
    (((Edit.ignoreFiles ["config.js"]).command.perform {}).run.run { fs := legacyFiles }).1 = .ok 0 := by
  have hsucceeds : (((Edit.ignoreFiles ["config.js"]).command.perform {}).run.run
      { fs := legacyFiles }).1.toOption = some 0 := by
    decide +kernel
  generalize (((Edit.ignoreFiles ["config.js"]).command.perform {}).run.run
    { fs := legacyFiles }).1 = result at hsucceeds
  cases result with
  | ok code => rw [Option.some.inj hsucceeds]
  | error cause => cases hsucceeds

/-- The configuration that the command makes. -/
def legacyMade : Config :=
  { ignoredFiles := ["config.js"], directory := some ⟨.slash, ["project"]⟩ }

/-- The text of this configuration. -/
def legacyText : String :=
  "ignore:\n  variables: []\n  files:\n  - config.js\n" ++
    "scan:\n  exclude_dirs: []\n  min_severity: low\nrules: []\n"

/-- The project with the file that the command saves, seen from its top. -/
def legacySaved : FileSystem where
  root := .dir [("project", .dir [
    (".env-guardian.yaml", .file legacyText.toUTF8),
    ("src", .dir [("legacy", .dir [
      ("config.js", .file "const dbPassword = \"hunter2\";\n".toUTF8)])])])]
  cwd := ["project"]

theorem ignoring_legacyFiles : ignoring legacyFiles ["config.js"] = legacyMade := by decide +kernel

theorem toText_legacyMade : legacyMade.toText = legacyText := by decide +kernel

theorem configFile_legacyFiles :
    configFile legacyFiles = ⟨.slash, ["project", ".env-guardian.yaml"]⟩ := by
  decide +kernel

theorem legacyIgnored_eq : legacyIgnored = legacySaved := by
  obtain ⟨-, -, hwrite⟩ := write_of_ran ran_legacyFiles
  rw [configFile_legacyFiles, ignoring_legacyFiles, toText_legacyMade] at hwrite
  have hplace : legacyFiles.Writable ⟨.slash, ["project", ".env-guardian.yaml"]⟩
      ["project", ".env-guardian.yaml"] := by
    refine ⟨by decide, by decide +kernel, fun found hfound => ?_⟩
    exact ⟨_, (Option.some.inj hfound).symm⟩
  have hsaved := Except.ok.inj (hwrite.symm.trans (hplace.modifyFile_eq _))
  rw [legacyIgnored, hsaved]
  rfl

theorem unreported_of_ignoreFiles_legacyFiles :
    legacyFiles.Sound ∧ legacyIgnored.Sound ∧ legacyFiles.Denotes "config.js" legacyConfig ∧
      (Settings.load {} legacyIgnored ⟨.here, ["src", "legacy"]⟩).value.1.loadedFrom =
        some (configFile legacyFiles) ∧
      Reads legacyIgnored (examine { path := ⟨.here, ["src", "legacy"]⟩ } {}) fun seen =>
        ∀ v ∈ seen.report.suggested, ∀ file ∈ v.files, ¬ legacyIgnored.Denotes file legacyConfig := by
  have hspelling : legacyFiles.Denotes "config.js" legacyConfig := by decide +kernel
  have hentry : ignoreEntry legacyFiles "config.js" = .ok "config.js" := by decide +kernel
  have hback : Yaml.ReadsBack (ignoring legacyFiles ["config.js"]).document := by
    rw [ignoring_legacyFiles]
    decide +kernel
  have hslash : (configFile legacyFiles).root = .slash := by rw [configFile_legacyFiles]
  -- One evaluation for all that the saved file is loaded for.
  obtain ⟨hok, hfrom, hbase⟩ :
      (Settings.load {} legacyIgnored ⟨.here, ["src", "legacy"]⟩).value.2.isOk = true ∧
      (Settings.load {} legacyIgnored ⟨.here, ["src", "legacy"]⟩).value.1.loadedFrom =
        some (configFile legacyFiles) ∧
      (Settings.load {} legacyIgnored ⟨.here, ["src", "legacy"]⟩).value.1.base =
        some legacyFiles.cwdPath := by
    rw [legacyIgnored_eq, configFile_legacyFiles]
    decide +kernel
  obtain ⟨found, hload⟩ : ∃ found, (Settings.load {} legacyIgnored ⟨.here, ["src", "legacy"]⟩).value =
      ((Settings.load {} legacyIgnored ⟨.here, ["src", "legacy"]⟩).value.1, .ok found) :=
    (isOk_iff.1 hok).imp fun _ hfound => Prod.ext rfl hfound
  obtain ⟨-, -, hwrite⟩ := write_of_ran ran_legacyFiles
  have hwrote := FileSystem.write_eq_ok_iff.1 hwrite
  have hwritten := hwrote.evolves sound_legacyFiles
  have hevolves : legacyFiles.root.Evolves legacyIgnored.root := by
    rw [legacyIgnored, FileSystem.root_workedFrom]
    exact hwritten
  obtain ⟨entries, hproject⟩ := FileSystem.isDir_of_becomes (hwritten ["project"]) rfl
  have hsound : legacyIgnored.Sound := (hwrote.sound sound_legacyFiles).workedFrom hproject
  have hkept : legacyIgnored.bytes? (configFile legacyFiles) =
      ((Edit.ignoreFiles ["config.js"]).filesAfter {} legacyFiles).bytes? (configFile legacyFiles) :=
    FileSystem.bytes?_workedFrom hslash ["project"]
  refine ⟨sound_legacyFiles, hsound, hspelling, hfrom, ?_⟩
  exact unreported_of_ignoreFiles sound_legacyFiles hspelling rfl nofun List.mem_cons_self
    hentry (by decide +kernel) ran_legacyFiles hback hsound hkept hload hfrom (.inr hbase) (.inl ⟨rfl, hevolves⟩)

/-- Scanned from the top of the project, the file that was ignored further down is reported: its entry
`config.js` is looked for at the top. -/
theorem legacyConfig_reported :
    (((Edit.ignoreFiles ["config.js"]).command.perform {}).run.run
        { fs := legacyFiles }).1.toOption = some 0 ∧
      legacyFiles.Denotes "config.js" legacyConfig ∧
      (Settings.load {} legacyIgnored ⟨.here, ["src"]⟩).value.1.loadedFrom =
        some (configFile legacyFiles) ∧
      ((examine { path := ⟨.here, ["src"]⟩ } {}).run.run
          { fs := legacyIgnored }).1.toOption.map (·.report.suggested) =
        some [⟨"dbPassword", .critical, ["src/legacy/config.js"], some "hunter2"⟩] ∧
      legacyIgnored.Denotes "src/legacy/config.js" legacyConfig := by
  rw [ran_legacyFiles, legacyIgnored_eq, configFile_legacyFiles]
  refine ⟨rfl, ?_, ?_, ?_, ?_⟩ <;> decide +kernel

end EnvAudit.CommandLine
