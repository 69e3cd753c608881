import EnvAudit.Proofs.Config.Load
import EnvAudit.Proofs.FileSystem.Resolve

/-!
# Projects without configuration

Where none of the places holds a configuration file, the settings are the default ones, which ignore
nothing and add no rules.
-/

namespace EnvAudit

namespace Settings

variable {fs : FileSystem} {settings : Settings}

/-- None of the files is known to stand there in which the configuration for the working directory could
be. -/
def Unconfigured (fs : FileSystem) : Prop :=
  ∀ file ∈ candidates fs.cwdPath fs.cwdPath, fs.exists? file ≠ .ok true

instance (fs : FileSystem) : Decidable (Unconfigured fs) :=
  inferInstanceAs (Decidable (∀ file ∈ candidates fs.cwdPath fs.cwdPath, fs.exists? file ≠ .ok true))

/-- Without a configuration file the settings are the default ones, or they cannot be told. -/
theorem Unconfigured.fst_value_load [Yaml.Library] (h : Unconfigured fs) (hfs : fs.Sound) :
    (load {} fs ⟨.here, []⟩).value.1 = { base := some fs.cwdPath } := by
  have hproject : projectOf fs ⟨.here, []⟩ = .ok fs.cwdPath := by
    simp [projectOf, hfs.resolve_here, hfs.isFile_cwdPath, bind, Except.bind, pure, Except.pure]
  cases hsource : firstExisting fs (candidates fs.cwdPath fs.cwdPath) with
  | error cause => simp [load, hproject, hfs.resolve_here, hsource]
  | ok source? =>
      cases source? with
      | none => simp [load, hproject, hfs.resolve_here, hsource]
      | some file =>
          obtain ⟨front, rest, hcandidates, hexists, -⟩ := firstExisting_eq_some_iff.1 hsource
          exact absurd hexists (h file (by simp [hcandidates]))

/-- The default configuration ignores nothing. -/
theorem ignoreTest_eq_nothing (h : settings.config = {}) (fs : FileSystem) :
    settings.ignoreTest fs = .nothing := by
  funext name files
  have hfiles : (settings.config.ignoresAnyFile fs settings.base files) = .ok false := by
    rw [h]
    induction files with
    | nil => rfl
    | cons file files ih => simpa [Config.ignoresAnyFile, Config.ignoresFile, bind, Except.bind]
  rw [ignoreTest, Config.ignoreTest, hfiles, h]
  simp [Config.ignoresVariable, IgnoreTest.nothing]

end Settings

end EnvAudit
