import EnvAudit.FileSystem.Basic
import EnvAudit.Log
import EnvAudit.Severity

/-!
# Configuration

What a project configures: the variables and files to hear nothing of, the directories to skip, the
least severity to report and the files with more rules.
-/

namespace EnvAudit

/-- What a project configures. -/
structure Config where
  ignoredVariables : List String := []
  ignoredFiles : List String := []
  excludedDirs : List String := []
  minSeverity : String := "low"
  ruleFiles : List String := []
  /-- The directory of the file that the configuration was read from. -/
  directory : Option Path := none
deriving Repr, DecidableEq, Inhabited

namespace Config

/-- Adds those of the names that are new, blank characters around them aside; gives the list and
what was added. -/
def addNew (known : List String) (names : List String) : List String × List String :=
  names.foldl (fun (known, added) name =>
    let name := Text.trimmed name
    if name = "" ∨ known.contains name then (known, added)
    else (known ++ [name], added ++ [name])) (known, [])

/-- The configuration that ignores more variables, and those that are new. -/
def ignoreVariables (config : Config) (names : List String) : Config × List String :=
  let (known, added) := addNew config.ignoredVariables names
  ({ config with ignoredVariables := known }, added)

/-- The configuration that ignores more files, and those that are new. -/
def ignoreFiles (config : Config) (files : List String) : Config × List String :=
  let (known, added) := addNew config.ignoredFiles files
  ({ config with ignoredFiles := known }, added)

def ignoreNothing (config : Config) : Config :=
  { config with ignoredVariables := [], ignoredFiles := [] }

def setMinSeverity (config : Config) (severity : Severity) : Config :=
  { config with minSeverity := severity.name }

/-- The least severity to report; a text that names none counts as low. -/
def threshold (config : Config) : Logged Severity :=
  match Severity.parse config.minSeverity with
  | .ok severity => pure severity
  | .error _ => do
    .say .warning .config s!"Invalid min_severity '{config.minSeverity}', using low"
    pure .low

end Config

end EnvAudit
