import EnvAudit.Proofs.CommandLine.Verdict
import EnvAudit.Proofs.Config.Replaced
import EnvAudit.Proofs.Report.Shown

/-!
# The exit code in either format

A scan that writes no files does the same work whatever the format of its report is, and the report itself
can always be shown.  What a terminal is told besides are two paths, and these stand in the markup as they
are: the exit codes agree as long as these lines can be printed.
-/

namespace EnvAudit

namespace CommandLine

open Act

variable {fs : FileSystem} {options : ScanOptions} {loudness : Loudness}

/-- The line that tells which path is scanned. -/
def pathLine (path : Path) : String := s!"[dim]Scanning {path}...[/dim]"

/-- The format in which a scan reports. -/
abbrev ScanOptions.as (options : ScanOptions) (format : ScanFormat) : ScanOptions := { options with format }

section Libraries

variable [Yaml.Library] [Pattern.Compiler] [Terminal.Console]

/-- The path that is scanned can be told, if it comes to this and it is to be told. -/
def TellsPath (options : ScanOptions) (loudness : Loudness) (fs : FileSystem) : Prop :=
  loudness.quiet = false → (∃ prepared, Returns fs (prepare (options.as .json) loudness) prepared) →
    (Terminal.Console.print false (pathLine options.path)).isOk = true

/-- What a scan tells on a terminal before it reports can be printed. -/
structure Tells (options : ScanOptions) (loudness : Loudness) (fs : FileSystem) : Prop where
  source : TellsSource options loudness fs
  path : TellsPath options loudness fs

/-! ## The steps of a scan -/

omit [Pattern.Compiler] [Terminal.Console] in
theorem yields_settingsFor (path : Path) :
    Yields fs (settingsFor path)
      (((Settings.load {} fs path).value.2.mapError .document).map ((Settings.load {} fs path).value.1, ·)) := by
  rintro s rfl
  rw [run_settingsFor]
  exact ⟨rfl, rfl⟩

section LawfulConsole

variable [Terminal.LawfulConsole]

end LawfulConsole

/-! ## What cannot be told -/

/-- The paths that are told on a terminal hold no opening bracket. -/
structure Harmless (options : ScanOptions) (loudness : Loudness) (fs : FileSystem) : Prop where
  source : loudness.verbose = true → ∀ source ∈ (Settings.load {} fs options.path).value.1.loadedFrom,
    '[' ∉ source.toString.toList
  path : loudness.quiet = false → '[' ∉ options.path.toString.toList

theorem Harmless.tells [Terminal.LawfulConsole] (h : Harmless options loudness fs) :
    Tells options loudness fs where
  source hverbose source hsource := by
    have hinner : Terminal.Inner ("Loaded config from: " ++ source.toString ++ "") :=
      .text (by simp [h.source hverbose source hsource])
    exact Terminal.LawfulConsole.isOk_print false
      (.of_line "dim" "Loaded config from: " "" (by decide) (by decide) (by decide) hinner)
  path hquiet _ := by
    have hinner : Terminal.Inner ("Scanning " ++ options.path.toString ++ "...") :=
      .text (by simp [h.path hquiet])
    exact Terminal.LawfulConsole.isOk_print false
      (.of_line "dim" "Scanning " "..." (by decide) (by decide) (by decide) hinner)

variable [ArgumentParser]

end Libraries

end CommandLine

end EnvAudit
