import EnvAudit.CommandLine.Scan
import EnvAudit.Libraries
import EnvAudit.Proofs.CommandLine.Act
import EnvAudit.Proofs.Config.Load

/-!
# What a scan begins with

A scan begins with the settings for its path and with an engine that has all rules of the rule files
which are in order.  Files that are malformed or that the system refuses to read are passed over; the
preparation ends early exactly if a file breaks, or if the system does not tell whether one is there.
-/

namespace EnvAudit

namespace RuleFile

variable {fs : FileSystem} {known paths files : List Path}

/-- Files are added if the system tells of each path whether it names one. -/
theorem value_add_eq_ok_iff :
    (add fs known paths).value = .ok files ↔
      (∀ path ∈ paths, ∃ answer, fs.isFile path = .ok answer) ∧
        files = known ++ paths.filter fun path => decide (fs.isFile path = .ok true) := by
  induction paths generalizing known with
  | nil =>
      rw [add, Logged.value_pure, Except.ok.injEq]
      simp [eq_comm]
  | cons path paths ih =>
      rw [add, List.forall_mem_cons]
      rcases hfile : fs.isFile path with cause | _ | _
      · simp
      · simp [ih, hfile]
      · simp [ih, hfile]

end RuleFile

namespace Config

variable {config : Config} {fs : FileSystem} {files : List Path}

/-- The system tells of each rule file that a configuration names whether it is there. -/
def TellsRuleFiles (config : Config) (fs : FileSystem) : Prop :=
  ∀ file ∈ config.ruleFiles.map (config.rulePath none), ∃ answer, fs.isFile file = .ok answer

/-- The rule files of a configuration that are known to be there. -/
def knownRuleFiles (config : Config) (fs : FileSystem) : List Path :=
  (config.ruleFiles.map (config.rulePath none)).filter fun file => decide (fs.isFile file = .ok true)

/-- The rule files of a configuration that are known to be there, and more files. -/
def ruleFilesWith (config : Config) (fs : FileSystem) (more : List Path) : List Path :=
  config.knownRuleFiles fs ++ more

section Rules

variable [Yaml.Library] [Pattern.Compiler]

theorem value_fileRules_eq_ok_iff {rules : List FileRule} :
    (config.fileRules fs none).value = .ok rules ↔
      config.TellsRuleFiles fs ∧
        (RuleFile.loadAll fs (config.knownRuleFiles fs)).value = .ok rules := by
  rw [fileRules, Logged.value_bind]
  cases hadd : (RuleFile.add fs [] (config.ruleFiles.map (config.rulePath none))).value with
  | error cause =>
      have hnot : ¬ config.TellsRuleFiles fs := by
        intro htells
        cases hadd.symm.trans (RuleFile.value_add_eq_ok_iff.2 ⟨htells, rfl⟩)
      simp [hnot]
  | ok files =>
      obtain ⟨htells, hfiles⟩ := RuleFile.value_add_eq_ok_iff.1 hadd
      rw [List.nil_append] at hfiles
      rw [knownRuleFiles, ← hfiles]
      exact (and_iff_right htells).symm

end Rules

end Config

namespace CommandLine

open Act

variable {options : ScanOptions} {loudness : Loudness} {s : Session} {settings : Settings}
  {engine : Engine}

section Preparation

variable [Yaml.Library] [Pattern.Compiler]

/-- The engine of a scan has the rules of all files, if it can be told which there are and none of them
breaks. -/
theorem engineFor_eq_ok_iff {config : Config} {more : List Path} :
    ((engineFor config more).run.run s).1 = .ok engine ↔
      config.TellsRuleFiles s.fs ∧
        (∀ file ∈ config.ruleFilesWith s.fs more, ¬ RuleFile.Breaks s.fs file) ∧
          engine = Config.engineWith ((config.ruleFilesWith s.fs more).flatMap
            (RuleFile.rulesAt s.fs)) := by
  rw [engineFor, run_files_bind, run_logged_bind, run_document_bind, Config.ruleFilesWith,
    List.forall_mem_append, List.flatMap_append]
  cases hconfigured : (config.fileRules s.fs none).value with
  | error cause =>
      have hbreaks : ¬ (config.TellsRuleFiles s.fs ∧
          ∀ file ∈ config.knownRuleFiles s.fs, ¬ RuleFile.Breaks s.fs file) := by
        rintro ⟨htells, hnot⟩
        cases hconfigured.symm.trans (Config.value_fileRules_eq_ok_iff.2
          ⟨htells, RuleFile.value_loadAll_eq_ok_iff.2 ⟨hnot, rfl⟩⟩)
      exact iff_of_false nofun fun h => hbreaks ⟨h.1, h.2.1.1⟩
  | ok rules =>
      obtain ⟨htells, hloaded⟩ := Config.value_fileRules_eq_ok_iff.1 hconfigured
      obtain ⟨hnot, rfl⟩ := RuleFile.value_loadAll_eq_ok_iff.1 hloaded
      simp only [run_logged_bind, run_document_bind]
      cases hmore : (RuleFile.loadAll s.fs more).value with
      | error cause =>
          have hbreaks : ¬ ∀ file ∈ more, ¬ RuleFile.Breaks s.fs file := by
            intro hnot
            cases hmore.symm.trans (RuleFile.value_loadAll_eq_ok_iff.2 ⟨hnot, rfl⟩)
          exact iff_of_false nofun fun h => hbreaks h.2.1.2
      | ok added =>
          obtain ⟨hnot', rfl⟩ := RuleFile.value_loadAll_eq_ok_iff.1 hmore
          exact ⟨fun h => ⟨htells, ⟨hnot, hnot'⟩, (Except.ok.inj h).symm⟩,
            fun h => congrArg Except.ok h.2.2.symm⟩

omit [Pattern.Compiler] in
theorem run_settingsFor (path : Path) (s : Session) :
    (settingsFor path).run.run s =
      (((Settings.load {} s.fs path).value.2.mapError .document).map
          ((Settings.load {} s.fs path).value.1, ·),
        { s with log := s.log ++ (Settings.load {} s.fs path).log }) := by
  rw [settingsFor, run_files_bind, run_logged_bind]
  generalize (Settings.load {} s.fs path).value = result
  obtain ⟨settings, _ | _⟩ := result <;> rfl

variable [Terminal.Console]

/-- The line that tells where settings come from. -/
def sourceLine (source : Path) : String := s!"[dim]Loaded config from: {source}[/dim]"

/-- Where the settings for a path come from can be told, if it is to be told. -/
def TellsSource (options : ScanOptions) (loudness : Loudness) (fs : FileSystem) : Prop :=
  loudness.verbose = true → ∀ source ∈ (Settings.load {} fs options.path).value.1.loadedFrom,
    (Terminal.Console.print false (sourceLine source)).isOk = true

/-- Once the settings are read, the preparation goes on with the engine. -/
theorem exists_run_prepare (htold : TellsSource options loudness s.fs) {found : Bool}
    (hload : (Settings.load {} s.fs options.path).value = (settings, .ok found)) :
    ∃ s' : Session, s'.fs = s.fs ∧ ((prepare options loudness).run.run s).1 =
      (((engineFor settings.config options.ruleFiles).run.run s').1).map (settings, ·) := by
  let told : Session := { s with log := s.log ++ (Settings.load {} s.fs options.path).log }
  have hreturn : ∀ s' : Session, ((do
      let engine ← engineFor settings.config options.ruleFiles
      return (settings, engine) : Act (Settings × Engine)).run.run s').1 =
        (((engineFor settings.config options.ruleFiles).run.run s').1).map (settings, ·) := by
    intro s'
    rw [run_bind]
    generalize (engineFor settings.config options.ruleFiles).run.run s' = ending
    obtain ⟨_ | _, _⟩ := ending <;> rfl
  have hsettings : (settingsFor options.path).run.run s = (.ok (settings, found), told) := by
    rw [run_settingsFor, hload]
    rfl
  rw [prepare, run_bind, hsettings]
  simp only
  cases hsource : settings.loadedFrom with
  | none => exact ⟨told, rfl, hreturn told⟩
  | some source =>
      simp only
      split
      · rename_i hshown
        simp only [Bool.and_eq_true] at hshown
        have hline : (Terminal.Console.print false (sourceLine source)).isOk = true :=
          htold hshown.1.1 source (by rw [hload]; exact hsource)
        unfold sourceLine at hline
        have hprint := gives_print hline told rfl
        rw [run_bind]
        generalize (print s!"[dim]Loaded config from: {source}[/dim]").run.run told = ending at hprint ⊢
        obtain ⟨_, s'⟩ := ending
        obtain ⟨rfl, hfs⟩ := hprint
        exact ⟨s', hfs, hreturn s'⟩
      · exact ⟨told, rfl, hreturn told⟩

/-- A scan is prepared exactly if it can be told which files there are and neither the configuration file
nor one of the rule files breaks.  It begins with what these files come to. -/
theorem prepare_eq_ok_iff (htold : TellsSource options loudness s.fs) :
    ((prepare options loudness).run.run s).1 = .ok (settings, engine) ↔
      ∃ project cwd source?, Settings.projectOf s.fs options.path = .ok project ∧
        s.fs.resolve ⟨.here, []⟩ = .ok cwd ∧
          Settings.firstExisting s.fs (Settings.candidates project cwd) = .ok source? ∧
            (∀ file ∈ source?, ¬ Settings.BreaksConfig s.fs file) ∧
              settings = Settings.takeOver {} s.fs project source? ∧
                settings.config.TellsRuleFiles s.fs ∧
                  (∀ file ∈ settings.config.ruleFilesWith s.fs options.ruleFiles,
                    ¬ RuleFile.Breaks s.fs file) ∧
                    engine = Config.engineWith
                      ((settings.config.ruleFilesWith s.fs options.ruleFiles).flatMap
                        (RuleFile.rulesAt s.fs)) := by
  constructor
  · intro h
    cases hfound : (Settings.load {} s.fs options.path).value.2 with
    | error cause =>
        rw [prepare, run_bind, run_settingsFor, hfound] at h
        cases h
    | ok found =>
        obtain ⟨s', hfs, hrun⟩ := exists_run_prepare htold (Prod.ext rfl hfound)
        rw [hrun] at h
        obtain ⟨engine', hengine, heq⟩ := map_eq_ok_iff.1 h
        obtain ⟨rfl, rfl⟩ := Prod.mk.inj heq
        obtain ⟨project, cwd, source?, hproject, hcwd, hsource, hfile, hsettings⟩ :=
          Settings.value_load_eq_ok_iff.1 ⟨found, Prod.ext rfl hfound⟩
        rw [engineFor_eq_ok_iff, hfs] at hengine
        exact ⟨project, cwd, source?, hproject, hcwd, hsource, hfile, hsettings, hengine⟩
  · rintro ⟨project, cwd, source?, hproject, hcwd, hsource, hfile, rfl, hrules⟩
    obtain ⟨s', hfs, hrun⟩ :=
      exists_run_prepare htold (Settings.value_load hproject hcwd hsource hfile)
    rw [hrun]
    refine map_eq_ok_iff.2 ⟨_, engineFor_eq_ok_iff.2 ?_, rfl⟩
    rw [hfs]
    exact hrules

/-- Settings and rules are read, and a scan is prepared, exactly if the system tells which of their files
there are and no file breaks that they are read from.  Files that are malformed, or refused when they are
read, are passed over, and so are the entries of rule files that are not in order. -/
theorem reads_iff_not_breaks (known : Settings) (paths : List Path)
    (htold : TellsSource options loudness s.fs) :
    (∀ settings, (∃ found, (known.load s.fs options.path).value = (settings, .ok found)) ↔
      ∃ project cwd source?, Settings.projectOf s.fs options.path = .ok project ∧
        s.fs.resolve ⟨.here, []⟩ = .ok cwd ∧
          Settings.firstExisting s.fs (Settings.candidates project cwd) = .ok source? ∧
            (∀ file ∈ source?, ¬ Settings.BreaksConfig s.fs file) ∧
              settings = known.takeOver s.fs project source?) ∧
    (∀ rules, (RuleFile.loadAll s.fs paths).value = .ok rules ↔
      (∀ file ∈ paths, ¬ RuleFile.Breaks s.fs file) ∧
        rules = paths.flatMap (RuleFile.rulesAt s.fs)) ∧
    ∀ settings engine, ((prepare options loudness).run.run s).1 = .ok (settings, engine) ↔
      ∃ project cwd source?, Settings.projectOf s.fs options.path = .ok project ∧
        s.fs.resolve ⟨.here, []⟩ = .ok cwd ∧
          Settings.firstExisting s.fs (Settings.candidates project cwd) = .ok source? ∧
            (∀ file ∈ source?, ¬ Settings.BreaksConfig s.fs file) ∧
              settings = Settings.takeOver {} s.fs project source? ∧
                settings.config.TellsRuleFiles s.fs ∧
                  (∀ file ∈ settings.config.ruleFilesWith s.fs options.ruleFiles,
                    ¬ RuleFile.Breaks s.fs file) ∧
                    engine = Config.engineWith
                      ((settings.config.ruleFilesWith s.fs options.ruleFiles).flatMap
                        (RuleFile.rulesAt s.fs)) :=
  ⟨fun _ => Settings.value_load_eq_ok_iff, fun _ => RuleFile.value_loadAll_eq_ok_iff,
    fun _ _ => prepare_eq_ok_iff htold⟩

end Preparation

/-- A project with a malformed configuration file and a rule file of which one entry is in order. -/
def faultyFiles : FileSystem where
  root := .dir
    [(".env-guardian.yaml", .file "rules: [".toUTF8),
      ("rules.yaml", .file
        "rules:\n- pattern: (\n  severity: high\n- pattern: TOKEN\n  severity: low\n".toUTF8)]

def faultyOptions : ScanOptions := { path := ⟨.here, []⟩, ruleFiles := [⟨.here, ["rules.yaml"]⟩] }

open scoped Libraries in
theorem reads_iff_not_breaks_faultyFiles :
    TellsSource faultyOptions {} faultyFiles ∧
      ∃ engine, ((prepare faultyOptions {}).run.run { fs := faultyFiles }).1 =
        .ok ({ base := some ⟨.slash, []⟩ }, engine) := by
  have htold : TellsSource faultyOptions {} faultyFiles := by simp [TellsSource]
  have hproject : Settings.projectOf faultyFiles faultyOptions.path = .ok ⟨.slash, []⟩ := by
    decide +kernel
  have hcwd : faultyFiles.resolve ⟨.here, []⟩ = .ok ⟨.slash, []⟩ := by decide +kernel
  have hsource : Settings.firstExisting faultyFiles (Settings.candidates ⟨.slash, []⟩ ⟨.slash, []⟩) =
      .ok (some ⟨.slash, [".env-guardian.yaml"]⟩) := by decide +kernel
  have hread : (Settings.readFile faultyFiles ⟨.slash, [".env-guardian.yaml"]⟩).value.isOk = true := by
    decide +kernel
  have hloaded : (RuleFile.load faultyFiles ⟨.here, ["rules.yaml"]⟩).value.isOk = true := by
    decide +kernel
  refine ⟨htold, _, ((reads_iff_not_breaks (s := { fs := faultyFiles }) {} [] htold).2.2 _ _).2
    ⟨_, _, _, hproject, hcwd, hsource, ?_, by decide +kernel, ?_, ?_, rfl⟩⟩
  · intro file hfile hbreaks
    obtain rfl := Option.some.inj hfile
    obtain ⟨cause, hcause⟩ := Settings.breaksConfig_iff.1 hbreaks
    obtain ⟨config, hconfig⟩ := isOk_iff.1 hread
    cases hcause.symm.trans hconfig
  · intro file hfile
    cases hfile
  · intro file hfile
    obtain rfl : file = ⟨.here, ["rules.yaml"]⟩ := List.mem_singleton.1 hfile
    obtain ⟨rules, hrules⟩ := isOk_iff.1 hloaded
    exact (RuleFile.value_load_eq_ok_iff.1 hrules).1

open scoped Libraries in
/-- A configuration that is no text, and rule files with a month that is none and with a count that is
too large, are not passed over. -/
theorem breaks_undecodable :
    let config : FileSystem := { root := .dir [(".env-guardian.yaml", .file ⟨#[0xff]⟩)] }
    let month : FileSystem := { root := .dir [("rules.yaml", .file "rules: 2020-13-01".toUTF8)] }
    let count : FileSystem :=
      { root := .dir [("rules.yaml", .file
          "rules:\n- pattern: a\x7b99999999999\x7d\n  severity: low\n".toUTF8)] }
    (Settings.load {} config ⟨.here, []⟩).value.2.isOk = false ∧
      (RuleFile.loadAll month [⟨.here, ["rules.yaml"]⟩]).value.isOk = false ∧
        (RuleFile.loadAll count [⟨.here, ["rules.yaml"]⟩]).value.isOk = false := by
  decide +kernel

end CommandLine

end EnvAudit
