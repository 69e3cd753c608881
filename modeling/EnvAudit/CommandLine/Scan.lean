import EnvAudit.CommandLine.Command
import EnvAudit.CommandLine.Session
import EnvAudit.Dotenv
import EnvAudit.Report.Document
import EnvAudit.Report.Terminal
import EnvAudit.TreeScan

/-!
# Scanning from the command line

The command that scans a path, reports what it found and adds suggestions to an environment file.
-/

namespace EnvAudit.CommandLine

open Act Terminal

variable [Yaml.Library] [Pattern.Compiler] [Console]

/-- The engine for a scan: the built-in rules, those of the configuration, and those of more
files. -/
def engineFor (config : Config) (more : List Path) : Act Engine := do
  let fs ← files
  let configured ← document (← logged (config.fileRules fs none))
  let added ← document (← logged (RuleFile.loadAll fs more))
  return Config.engineWith (configured ++ added)

def showReport (options : ScanOptions) (loudness : Loudness) (report : Report)
    (findings : Findings) (scannedFiles : Nat) : Act Unit := do
  let fs ← files
  let isDir ← file (fs.isDir options.path)
  let scanned := (if isDir then options.path else options.path.parent).toString
  match options.format with
  | .terminal =>
    let view : ReportView :=
      { verbose := loudness.verbose, quiet := loudness.quiet, noColor := options.noColor }
    let shown := report.printout view fs.cwdPath scanned scannedFiles
    echo (String.ofList shown.text)
    if shown.error.isSome then throw .markup
  | .json =>
    let json := (report.document findings scanned scannedFiles).toText .indented
    match options.output with
    | some target => setFiles (← file (fs.write target json))
    | none => echo (json ++ "\n")

/-- Adds suggestions to an environment file. -/
def extendEnvFile (name : String) (loudness : Loudness) (settings : Settings)
    (findings : Findings) : Act Unit := do
  let fs ← files
  let target := fs.cwdPath / Path.ofString name
  let outcome ← file (Dotenv.append fs target findings (settings.ignoreTest fs))
  setFiles outcome.fileSystem
  logged ⟨(), outcome.log⟩
  if !outcome.written.isEmpty then
    print s!"[yellow]Added {outcome.written.length} suggestion(s) to {name}[/yellow]"
  else if !loudness.quiet then print s!"[dim]No new suggestions to add to {name}[/dim]"

/-- Whether a report has a suggestion of at least a severity. -/
def reaches (report : Report) (level : Option Severity) : Bool :=
  match level, report.maxSeverity? with
  | some level, some highest => level ≤ highest
  | _, _ => false

/-- The settings and the engine for a scan; where the settings come from can be told. -/
def prepare (options : ScanOptions) (loudness : Loudness) : Act (Settings × Engine) := do
  let shown := options.format == .terminal
  let (settings, loaded) ← settingsFor options.path
  match settings.loadedFrom with
  | some source =>
    if loudness.verbose && loaded && shown then print s!"[dim]Loaded config from: {source}[/dim]"
  | none => pure ()
  return (settings, ← engineFor settings.config options.ruleFiles)

def announce (options : ScanOptions) (loudness : Loudness) : Act Unit := do
  if !loudness.quiet && options.format == .terminal then
    print s!"[dim]Scanning {options.path}...[/dim]"

/-- The findings of a scan and the number of files that it looked at. -/
def findingsOf (options : ScanOptions) (loudness : Loudness) (settings : Settings)
    (engine : Engine) : Act (Findings × Nat) := do
  announce options loudness
  let scanner : Scanner := { engine, excluded := settings.config.excludedDirs }
  let scanned ← logged (scanner.scan (← files) options.path)
  return (← file scanned.2, scanned.1.scannedFiles)

def reportOn (options : ScanOptions) (settings : Settings) (findings : Findings) :
    Act Report := do
  let threshold ← match options.severity with
    | some severity => pure severity
    | none => logged settings.config.threshold
  file ((settings.ignoreTest (← files)).report findings threshold)

/-- Scans a path and reports on it.  The exit code is one if the report reaches the severity to
fail on. -/
def scanPath (options : ScanOptions) (loudness : Loudness) : Act Nat := do
  let (settings, engine) ← prepare options loudness
  let (findings, scannedFiles) ← findingsOf options loudness settings engine
  let report ← reportOn options settings findings
  showReport options loudness report findings scannedFiles
  match options.envFile with
  | some name => extendEnvFile name loudness settings findings
  | none => pure ()
  return if reaches report options.failOn then 1 else 0

/-- Scans a path; where the system refuses a file, this is told and the exit code is two. -/
def scan (options : ScanOptions) (loudness : Loudness) : Act Nat :=
  tryCatch (scanPath options loudness) fun failure => do
    match failure with
    | .document (.file (.fault cause path)) =>
      logged (.say .debug .scanCommand "Scan failed")
      print s!"[red]Scan failed:[/red] {(FileError.fault cause path).message}"
      return 2
    | _ => throw failure

end EnvAudit.CommandLine
