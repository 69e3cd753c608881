import EnvAudit.CommandLine.Command
import EnvAudit.CommandLine.Session
import EnvAudit.Config.Template

/-!
# Changing the configuration

The commands that change what is ignored and what is reported, and the one that writes a first
configuration file.
-/

namespace EnvAudit.CommandLine

open Act Terminal

variable [Yaml.Library] [Console]

def saveSettings (settings : Settings) : Act Unit := do
  let (_, fs, target) ← file (settings.save (← files) none)
  setFiles fs
  print s!"[blue]Updated ignore config at {target}[/blue]"

def ignoreVariables (names : List String) : Act Nat := do
  let settings ← settingsHere
  let (config, added) := settings.config.ignoreVariables names
  for name in (names.map Text.trimmed).filter (· != "") do
    let shown := Console.escape name
    if added.contains name then print s!"[green]✔ Now ignoring {shown}[/green]"
    else print s!"[dim]{shown} is already ignored[/dim]"
  saveSettings { settings with config }
  return 0

/-- Whether a text has a mark that makes it a glob. -/
def isGlob (text : String) : Bool := text.toList.any fun c => c == '*' || c == '?' || c == '['

/-- A file as it is written to the configuration: globs as they are, and paths as seen from the
working directory. -/
def ignoreEntry (fs : FileSystem) (text : String) : Except FileError String :=
  if isGlob text then .ok text
  else do
    let resolved ← fs.resolve (.ofString text)
    let here ← fs.resolve ⟨.here, []⟩
    return fs.cwdPath.relativeTo resolved.toString here.toString

def ignoreFiles (names : List String) : Act Nat := do
  let settings ← settingsHere
  let entries ← file (names.mapM (ignoreEntry (← files)))
  let (config, added) := settings.config.ignoreFiles entries
  for entry in entries do
    let shown := Console.escape entry
    if added.contains entry then
      print s!"[green]✔ Now ignoring ALL variables in {shown}[/green]"
    else print s!"[dim]ALL variables in {shown} are already ignored[/dim]"
  saveSettings { settings with config }
  return 0

def listIgnored : Act Nat := do
  let config := (← settingsHere).config
  if config.ignoredVariables.isEmpty && config.ignoredFiles.isEmpty then
    print "[dim]No ignore rules configured.[/dim]"
  else
    print "[bold]Currently Ignored Rules:[/bold]"
    print ""
    for name in config.ignoredVariables do
      print s!"[green]• {Console.escape name} (globally)[/green]"
    for path in config.ignoredFiles do
      print s!"[cyan]• ALL variables in {Console.escape path}[/cyan]"
    print ""
  return 0

def resetQuestion : String :=
  "This will clear every ignore rule in the config file. Continue?"

def resetIgnored (force : Bool) : Act Nat := do
  let settings ← settingsHere
  let agreed ← if force then pure true else confirm resetQuestion
  if agreed then
    saveSettings { settings with config := settings.config.ignoreNothing }
    print "[bright_blue]Reset complete[/bright_blue]"
  else print "[red]Reset canceled[/red]"
  return 0

def setPriority (level : Severity) : Act Nat := do
  let settings ← settingsHere
  saveSettings { settings with config := settings.config.setMinSeverity level }
  print s!"[green]✔ Reporting {level.label} and above[/green]"
  return 0

/-- Writes a configuration file, but not over another one unless forced to. -/
def writeTemplate (force : Bool) : Act Nat := do
  let fs ← files
  let target := Path.ofString Config.newFileName
  let isThere ← file (fs.exists? target)
  if isThere && !force then
    print s!"[yellow]Configuration file already exists: {target}[/yellow]"
    print "Use --force to overwrite"
    return 1
  else
    setFiles (← file (fs.write target Config.template))
    print s!"[green]Created configuration file: {target}[/green]"
    print ""
    print "Edit this file to:"
    print "  - Ignore variables or files that are false positives"
    print "  - Set the minimum severity to report"
    print "  - Skip extra directories and add custom rules"
    return 0

end EnvAudit.CommandLine
