import EnvAudit.Proofs.Config.Load
import EnvAudit.Proofs.Config.RoundTrip
import EnvAudit.Proofs.FileSystem.Resolve

/-!
# Loading what was saved

Settings are saved to the file that they were loaded from, or to the place that is looked at first if
there was none.  In both cases this is the file in which a configuration is found from then on.
-/

namespace EnvAudit.Settings

variable {fs fs' : FileSystem} {settings settings' : Settings} {target : Path} {config : Config}
  {found : Bool}

/-- The project of the working directory is the working directory. -/
theorem projectOf_cwdPath (hfs : fs.Sound) : projectOf fs fs.cwdPath = .ok fs.cwdPath := by
  simp [projectOf, hfs.resolve_cwdPath, hfs.isFile_cwdPath, bind, Except.bind, pure, Except.pure]

/-- The first place at which a configuration is looked for is a new file in the working directory. -/
theorem exists_candidates_eq (cwd : Path) :
    ∃ others, candidates cwd cwd = cwd.child Config.newFileName :: others := by
  rw [candidates, searchPath, List.eraseDups_cons]
  exact ⟨_, rfl⟩

/-! ## Settings for the working directory -/

variable [Yaml.Library]

theorem value_load_cwdPath (hfs : fs.Sound)
    (hload : (load {} fs fs.cwdPath).value = (settings, .ok found)) :
    ∃ source?, firstExisting fs (candidates fs.cwdPath fs.cwdPath) = .ok source? ∧
      settings = takeOver {} fs fs.cwdPath source? := by
  obtain ⟨project, cwd, source?, hproject, hcwd, hsource, -, hsettings⟩ :=
    value_load_eq_ok_iff.1 ⟨found, hload⟩
  rw [projectOf_cwdPath hfs] at hproject
  rw [hfs.resolve_here] at hcwd
  obtain rfl := Except.ok.inj hproject
  obtain rfl := Except.ok.inj hcwd
  exact ⟨source?, hsource, hsettings⟩

theorem minSeverity_configIn? {file : Path} (h : configIn? fs file = some config) :
    config.minSeverity ≠ "" := by
  rw [configIn?] at h
  split at h
  · rename_i document _
    split at h
    · cases hvalue : (Config.ofDocument document file).run.value with
      | error fault =>
          rw [hvalue] at h
          cases h
      | ok read =>
          rw [hvalue] at h
          obtain rfl := Option.some.inj h
          exact Config.minSeverity_ne_empty hvalue
    · cases h
  · cases h

/-- Settings that were loaded have a least severity. -/
theorem minSeverity_takeOver (project : Path) (source? : Option Path) :
    (takeOver {} fs project source?).config.minSeverity ≠ "" := by
  rw [takeOver]
  split
  · rename_i file config hfound
    obtain ⟨source, -, hmap⟩ := Option.bind_eq_some_iff.1 hfound
    obtain ⟨_, hconfig, heq⟩ := Option.map_eq_some_iff.1 hmap
    obtain ⟨rfl, rfl⟩ := Prod.mk.inj heq
    exact minSeverity_configIn? hconfig
  · change "low" ≠ ""
    decide

/-- The settings that come from a file are those that it holds. -/
theorem configIn?_of_loadedFrom {path file : Path}
    (hload : (load {} fs path).value = (settings, .ok found)) (hfrom : settings.loadedFrom = some file) :
    configIn? fs file = some settings.config := by
  obtain ⟨project, cwd, source?, -, -, -, -, rfl⟩ := value_load_eq_ok_iff.1 ⟨found, hload⟩
  rw [takeOver] at hfrom ⊢
  split at hfrom
  · rename_i source config hfound
    obtain rfl := Option.some.inj hfrom
    obtain ⟨other, -, hconfig⟩ := Option.bind_eq_some_iff.1 hfound
    obtain ⟨_, hholds, heq⟩ := Option.map_eq_some_iff.1 hconfig
    obtain ⟨rfl, rfl⟩ := Prod.mk.inj heq
    exact hholds
  · cases hfrom

/-! ## Saving -/

/-- A changed configuration is saved to where the settings are from. -/
theorem save_eq_ok_iff :
    { settings with config }.save fs none = .ok (settings', fs', target) ↔
      target = settings.target fs none ∧ fs.write target config.toText = .ok fs' ∧
        settings' = { settings with config, loadedFrom := some target } := by
  have htarget : { settings with config }.target fs none = settings.target fs none := rfl
  simp only [save, htarget, bind, Except.bind, pure, Except.pure]
  constructor
  · intro h
    split at h
    · cases h
    · rename_i written hwrite
      obtain ⟨rfl, rfl, rfl⟩ : _ ∧ _ ∧ _ := by simpa using h
      exact ⟨rfl, hwrite, rfl⟩
  · rintro ⟨rfl, hwrite, rfl⟩
    rw [hwrite]

/-- Once they are saved, the settings are found in the file that they were saved to. -/
theorem firstExisting_of_wrote (hfs : fs.Sound)
    (hload : (load {} fs fs.cwdPath).value = (settings, .ok found))
    {bytes : ByteArray} (hwrote : fs.Wrote (settings.target fs none) bytes fs') :
    firstExisting fs' (candidates fs.cwdPath fs.cwdPath) = .ok (some (settings.target fs none)) := by
  obtain ⟨source?, hsource, hsettings⟩ := value_load_cwdPath hfs hload
  rw [takeOver] at hsettings
  split at hsettings
  · -- The file was the first that is there, and it still is.
    rename_i file config hfound
    obtain ⟨source, rfl, hconfig⟩ := Option.bind_eq_some_iff.1 hfound
    obtain ⟨_, -, heq⟩ := Option.map_eq_some_iff.1 hconfig
    obtain ⟨rfl, -⟩ := Prod.mk.inj heq
    have htarget : settings.target fs none = source := by rw [hsettings]; rfl
    rw [htarget] at hwrote ⊢
    obtain ⟨front, rest, hcandidates, hexists, hfront⟩ := firstExisting_eq_some_iff.1 hsource
    have hsame : fs'.exists? = fs.exists? := funext (hwrote.exists?_of_exists hfs hexists)
    rw [firstExisting_eq_some_iff, hsame]
    exact ⟨front, rest, hcandidates, hexists, hfront⟩
  · -- There was no configuration; the new file is the first that is looked at.
    have htarget : settings.target fs none = fs.cwdPath.child Config.newFileName := by
      rw [hsettings]
      rfl
    obtain ⟨others, hcandidates⟩ := exists_candidates_eq fs.cwdPath
    rw [htarget] at hwrote ⊢
    rw [hcandidates]
    exact firstExisting_eq_some_iff.2 ⟨[], others, rfl, hwrote.exists?_self hfs, by simp⟩

theorem readDocument_of_bytes? {fields : List (String × Yaml.Document)} (hback : Yaml.ReadsBack fields)
    (hbytes : fs.bytes? target = some (Yaml.Library.write fields).toUTF8) :
    readDocument fs target = .ok (.map (Yaml.entriesOf fields)) := by
  rw [Yaml.ReadsBack] at hback
  rw [readDocument_of_read (FileSystem.bytes?_eq_some_iff_read.1 hbytes), hback]
  rfl

/-- A file that a configuration was written to holds it. -/
theorem value_readFile_of_bytes? (hlevel : config.minSeverity ≠ "")
    (hback : Yaml.ReadsBack config.document)
    (hbytes : fs.bytes? target = some config.toText.toUTF8) :
    (readFile fs target).value = .ok (some { config with directory := some target.parent }) := by
  rw [value_readFile_of_ok (readDocument_of_bytes? hback hbytes),
    Config.value_ofDocument_document hlevel]
  rfl

/-- Settings that were loaded for the working directory, changed and saved are loaded again. -/
theorem value_load_of_save (hfs : fs.Sound)
    (hload : (load {} fs fs.cwdPath).value = (settings, .ok found))
    (hlevel : config.minSeverity ≠ "") (hback : Yaml.ReadsBack config.document)
    (hsave : { settings with config }.save fs none = .ok (settings', fs', target)) :
    (load {} fs' fs'.cwdPath).value =
      ({ config := { config with directory := some target.parent }, loadedFrom := some target,
         base := some fs.cwdPath }, .ok true) := by
  obtain ⟨rfl, hwrite, -⟩ := save_eq_ok_iff.1 hsave
  have hwrote := FileSystem.write_eq_ok_iff.1 hwrite
  have hcwd : fs'.cwdPath = fs.cwdPath := by
    rw [FileSystem.cwdPath, FileSystem.cwdPath, hwrote.cwd_eq]
  have hsource := firstExisting_of_wrote hfs hload hwrote
  have hfile := value_readFile_of_bytes? hlevel hback (hwrote.bytes?_self hfs)
  generalize settings.target fs none = target at hsource hfile ⊢
  obtain ⟨hnot, hconfig⟩ := value_readFile_eq_ok_iff.1 hfile
  have hsound := hwrote.sound hfs
  have hintact : ∀ file ∈ some target, ¬ BreaksConfig fs' file := by
    rintro _ ⟨⟩
    exact hnot
  have hloaded : (load {} fs' fs'.cwdPath).value = (takeOver {} fs' fs'.cwdPath (some target), _) :=
    value_load (projectOf_cwdPath hsound) hsound.resolve_here (hcwd.symm ▸ hsource) hintact
  rw [hloaded, hcwd, takeOver, isConfigured, Option.bind_some, Option.bind_some, ← hconfig]
  rfl

end EnvAudit.Settings
