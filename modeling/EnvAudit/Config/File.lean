import EnvAudit.Config.Ignore
import EnvAudit.Engine
import EnvAudit.RuleFile

/-!
# Configuration files

The configuration of a project is kept in a file in its directory, in the working directory or in a
directory above.  Reading it takes over all of it or nothing; a part of the wrong shape counts as
left out, whatever the other parts are.
-/

namespace EnvAudit

/-- A configuration in use, the file that it stands in, and the directory of the project. -/
structure Settings where
  config : Config := {}
  loadedFrom : Option Path := none
  base : Option Path := none
deriving Repr, DecidableEq, Inhabited

namespace Config

/-- The names of configuration files, in the order in which they are looked for. -/
def fileNames : List String := [".env-guardian.yaml", ".env-guardian.yml", "env-guardian.yaml"]

def newFileName : String := ".env-guardian.yaml"

def document (config : Config) : List (String × Yaml.Document) :=
  [ ("ignore", .map
      [("variables", .list config.ignoredVariables), ("files", .list config.ignoredFiles)]),
    ("scan", .map
      [("exclude_dirs", .list config.excludedDirs), ("min_severity", .text config.minSeverity)]),
    ("rules", .list config.ruleFiles) ]

def toText [Yaml.Library] (config : Config) : String := Yaml.Library.write config.document

def warnShape (field : String) (path : Path) (shape : String) : Logged Unit :=
  .say .warning .config s!"Ignoring '{field}' in {path}: expected a {shape}"

/-- A section of a document; a missing one is empty. -/
def section? (document : Yaml.Value) (field : String) (path : Path) : Logged (Option Yaml.Value) :=
  match document.field? field with
  | none | some .null => pure none
  | some v =>
    if v.isMap then pure (some v)
    else do
      warnShape field path "mapping"
      return none

/-- What is read from a document, with what is said about it; a number can be too long. -/
abbrev DocumentRead := ExceptT Yaml.Fault Logged

/-- A list of texts in a section; a missing one is empty. -/
def texts (part : Option Yaml.Value) (field : String) (path : Path) : DocumentRead (List String) :=
  match part.bind (·.field? field) with
  | none | some .null => pure []
  | some v =>
    match v.items? with
    | some items => ExceptT.mk (pure (items.mapM (·.shown)))
    | none => do
      warnShape field path "list"
      return []

def ofDocument (document : Yaml.Value) (path : Path) : DocumentRead Config := do
  let ignore ← section? document "ignore" path
  let scan ← section? document "scan" path
  let ignoredVariables ← texts ignore "variables" path
  let ignoredFiles ← texts ignore "files" path
  let excludedDirs ← texts scan "exclude_dirs" path
  let level := scan.bind (·.field? "min_severity")
  let minSeverity ← ExceptT.mk (pure (Yaml.Value.truthyOr level (.text "low")).shown)
  let ruleFiles ← texts (some document) "rules" path
  return { ignoredVariables, ignoredFiles, excludedDirs, minSeverity, ruleFiles,
           directory := some path.parent }

end Config

namespace Settings

/-- The directories that are searched for a configuration file: that of the project, the working
directory, and those above the project up to the root directory, which is left out. -/
def searchPath (project cwd : Path) : List Path :=
  let above := (List.range (project.parts.length - 1)).map fun i =>
    { project with parts := project.parts.take (project.parts.length - 1 - i) }
  (project :: cwd :: above).eraseDups

/-- The places where a configuration file can be, in the order in which they are tried. -/
def candidates (project cwd : Path) : List Path :=
  (searchPath project cwd).flatMap fun dir => Config.fileNames.map dir.child

/-- The directory of the project that a path belongs to. -/
def projectOf (fs : FileSystem) (path : Path) : Except FileError Path := do
  let resolved ← fs.resolve path
  return if ← fs.isFile resolved then resolved.parent else resolved

/-- The first of some paths at which something stands. -/
def firstExisting (fs : FileSystem) : List Path → Except FileError (Option Path)
  | [] => .ok none
  | file :: rest => do
    if ← fs.exists? file then return some file
    firstExisting fs rest

section Documents

variable [Yaml.Library]

/-- The configuration in a file; `none` if it holds none. -/
def readFile (fs : FileSystem) (path : Path) : Logged (Except DocumentError (Option Config)) :=
  match readDocument fs path with
  | .error (.yaml .malformed) => do
    .say .warning .config s!"Failed to parse {path}"
    return .ok none
  | .error (.file (.fault cause p)) => do
    .say .warning .config s!"Error loading {path}: {(FileError.fault cause p).message}"
    return .ok none
  | .error cause => pure (.error cause)
  | .ok document =>
    if document.isMap then do
      match ← (Config.ofDocument document path).run with
      | .error fault => return .error (.yaml fault)
      | .ok config =>
        .say .debug .config s!"Loaded config from {path}"
        return .ok (some config)
    else do
      if document.isTruthy then
        .say .warning .config s!"Ignoring {path}: top level is not a mapping"
      return .ok none

/-- Reads the configuration for a path and tells whether there was one.  The project directory is
taken over even if there was none. -/
def load (settings : Settings) (fs : FileSystem) (path : Path) :
    Logged (Settings × Except DocumentError Bool) :=
  match projectOf fs path with
  | .error cause => pure (settings, .error (.file cause))
  | .ok project => do
    let settings := { settings with base := some project }
    match fs.resolve ⟨.here, []⟩ with
    | .error cause => return (settings, .error (.file cause))
    | .ok cwd =>
      match firstExisting fs (candidates project cwd) with
      | .error cause => return (settings, .error (.file cause))
      | .ok none => return (settings, .ok false)
      | .ok (some file) =>
        match ← readFile fs file with
        | .error cause => return (settings, .error cause)
        | .ok none => return (settings, .ok false)
        | .ok (some config) => return ({ settings with config, loadedFrom := some file }, .ok true)

/-- The file that the configuration is written to. -/
def target (settings : Settings) (fs : FileSystem) (path : Option Path) : Path :=
  (path.orElse fun _ => settings.loadedFrom).getD (fs.cwdPath.child Config.newFileName)

/-- Writes the configuration to a file, which it stands in from then on. -/
def save (settings : Settings) (fs : FileSystem) (path : Option Path) :
    Except FileError (Settings × FileSystem × Path) := do
  let target := settings.target fs path
  let fs ← fs.write target settings.config.toText
  return ({ settings with loadedFrom := some target }, fs, target)

end Documents

def ignores (settings : Settings) (fs : FileSystem) (variableName file : String) :
    Except FileError Bool :=
  if settings.config.ignoresVariable variableName then .ok true
  else settings.config.ignoresFile fs settings.base file

def ignoreTest (settings : Settings) (fs : FileSystem) : IgnoreTest :=
  settings.config.ignoreTest fs settings.base

end Settings

namespace Config

/-- The path of a rule file that the configuration names; a relative one is taken from the given
directory, or else from that of the configuration. -/
def rulePath (config : Config) (base : Option Path) (file : String) : Path :=
  match base.orElse fun _ => config.directory with
  | some dir => dir / Path.ofString file
  | none => Path.ofString file

def fileRules [Yaml.Library] [Pattern.Compiler] (config : Config) (fs : FileSystem) (base : Option Path) :
    Logged (Except DocumentError (List FileRule)) := do
  match ← RuleFile.add fs [] (config.ruleFiles.map (config.rulePath base)) with
  | .error cause => return .error (.file cause)
  | .ok files => RuleFile.loadAll fs files

/-- The engine with rules of files after its own. -/
def engineWith (rules : List FileRule) : Engine :=
  Engine.builtIn.extend (RuleFile.forTarget .name rules) (RuleFile.forTarget .value rules)

end Config

end EnvAudit
