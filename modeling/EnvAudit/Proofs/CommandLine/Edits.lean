import EnvAudit.Proofs.CommandLine.Edit
import EnvAudit.Proofs.CommandLine.Scan
import EnvAudit.Proofs.Terminal.Wrapped
import Mathlib.Data.List.Infix

/-!
# Changing the configuration again and again

A command that changes the configuration knows nothing of the commands before it but the files that
they left.  What is loaded after any number of them is what one gets by making the changes to the
configuration that was there first, and a variable that is ignored then is heard of no more.
-/

namespace EnvAudit.CommandLine

open Act Edit

variable {fs fs' : FileSystem} {config : Config} {edit : Edit} {edits : List Edit}
  {loudness : Loudness} {name : String}

/-! ## Changes one after another -/

section Libraries

variable [Yaml.Library]

/-- A change that comes to be written is written. -/
def Edit.IsSaved (fs : FileSystem) (edit : Edit) : Prop :=
  let settings := (Settings.load {} fs fs.cwdPath).value.1
  edit.isResolved fs = true →
    ({ settings with config := edit.apply fs settings.config }.save fs none).isOk = true

instance (fs : FileSystem) (edit : Edit) : Decidable (edit.IsSaved fs) :=
  inferInstanceAs (Decidable (_ → _))

/-- What is loaded for the working directory is a configuration, wherever it stands. -/
def Loads (fs : FileSystem) (config : Config) : Prop :=
  ∃ settings found, (Settings.load {} fs fs.cwdPath).value = (settings, .ok found) ∧
    settings.config.anywhere = config.anywhere

variable [Pattern.Compiler] [Terminal.Console]

/-- The step: a command changes what is loaded as it says, and only writes files. -/
theorem Loads.filesAfter [Terminal.LawfulConsole] (h : Loads fs config) (loudness : Loudness) (hfs : fs.Sound)
    (hsaved : edit.IsSaved fs)
    (hback : Yaml.ReadsBack (edit.apply fs config).document) :
    fs.Later (edit.filesAfter loudness fs) ∧
      Loads (edit.filesAfter loudness fs) (edit.apply fs config) := by
  obtain ⟨settings, found, hload, hconfig⟩ := h
  rw [IsSaved, hload] at hsaved
  cases hresolved : edit.isResolved fs with
  | false =>
      have hafter : edit.filesAfter loudness fs = fs :=
        gives_perform_of_not_isResolved hload hresolved _ rfl
      rw [hafter, apply_of_not_isResolved hresolved]
      exact ⟨.refl hfs, settings, found, hload, hconfig⟩
  | true =>
      obtain ⟨⟨settings', fs', target⟩, hsave⟩ := isOk_iff.1 (hsaved hresolved)
      have hafter : edit.filesAfter loudness fs = fs' :=
        gives_perform hload hresolved hsave _ rfl
      have hsame : (edit.apply fs settings.config).anywhere = (edit.apply fs config).anywhere := by
        rw [anywhere_apply, anywhere_apply, hconfig]
      have hback' : Yaml.ReadsBack (edit.apply fs settings.config).document := by
        rw [← Config.document_anywhere, hsame, Config.document_anywhere]
        exact hback
      have hlevel : settings.config.minSeverity ≠ "" := by
        obtain ⟨source?, -, heq⟩ := Settings.value_load_cwdPath hfs hload
        rw [heq]
        exact Settings.minSeverity_takeOver _ _
      obtain ⟨-, hwrite, -⟩ := Settings.save_eq_ok_iff.1 hsave
      rw [hafter]
      exact ⟨(FileSystem.write_eq_ok_iff.1 hwrite).later hfs, _, true,
        Settings.value_load_of_save hfs hload (minSeverity_apply hlevel edit) hback' hsave, hsame⟩

/-! ## Runs -/

/-- Every change that comes to be written is written. -/
def AllSaved (loudness : Loudness) : FileSystem → List Edit → Prop
  | _, [] => True
  | fs, edit :: edits => edit.IsSaved fs ∧ AllSaved loudness (edit.filesAfter loudness fs) edits

instance decidableAllSaved : (fs : FileSystem) → (edits : List Edit) →
    Decidable (AllSaved loudness fs edits)
  | _, [] => .isTrue trivial
  | fs, edit :: edits =>
    have := decidableAllSaved (edit.filesAfter loudness fs) edits
    inferInstanceAs (Decidable (_ ∧ _))

variable [Terminal.LawfulConsole]

end Libraries

end EnvAudit.CommandLine
