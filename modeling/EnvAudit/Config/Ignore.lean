import EnvAudit.Config.Basic
import EnvAudit.Glob
import EnvAudit.Report

/-!
# Ignored variables and files

A variable is ignored by its name.  A file is ignored by an entry that resolves to the same path,
from the working directory or from the base directory, or by a glob that fits its path below the
base directory.
-/

namespace EnvAudit.Config

def forwardSlashes (text : List Char) : List Char :=
  text.map fun c => if c = '\\' then '/' else c

/-- What stands in front of `/**` at the end of a glob. -/
def subtreeOf? (glob : List Char) : Option (List Char) :=
  if ['/', '*', '*'].isSuffixOf glob then some (glob.take (glob.length - 3)) else none

/-- Whether a glob fits a path.  `dir/**` also fits `dir` and all below it, and `**/name` any path
whose last name fits. -/
def globFits (path glob : String) : Bool :=
  let path := forwardSlashes path.toList
  let glob := forwardSlashes glob.toList
  let subtree := match subtreeOf? glob with
    | some dir => (dir ++ ['/']).isPrefixOf path || path == dir
    | none => false
  let last := match glob with
    | '*' :: '*' :: '/' :: rest => Glob.fits rest (Path.ofString (String.ofList path)).name.toList
    | _ => false
  Glob.fits glob path || subtree || last

/-- The path of a file by which globs are asked: below the base directory if it lies there. -/
def globPath (base : Option Path) (file : String) (resolved : Path) : String :=
  match base.bind (·.below? resolved) with
  | some parts => (⟨.here, parts⟩ : Path).toString
  | none => file

def entryIgnores (fs : FileSystem) (base : Option Path) (file : String) (resolved : Path)
    (entry : String) : Except FileError Bool := do
  let entryPath := Path.ofString entry
  if (← fs.resolve entryPath) == resolved then return true
  match base with
  | some base => if (← fs.resolve (base / entryPath)) == resolved then return true
  | none => pure ()
  return globFits (globPath base file resolved) entry

/-- Whether some entry ignores a file; the entries are asked in order up to the first that does. -/
def anyEntryIgnores (fs : FileSystem) (base : Option Path) (file : String) (resolved : Path) :
    List String → Except FileError Bool
  | [] => .ok false
  | entry :: rest => do
    if ← entryIgnores fs base file resolved entry then return true
    anyEntryIgnores fs base file resolved rest

def ignoresVariable (config : Config) (name : String) : Bool :=
  name != "" && config.ignoredVariables.contains name

/-- Whether every variable in a file is ignored. -/
def ignoresFile (config : Config) (fs : FileSystem) (base : Option Path) (file : String) :
    Except FileError Bool :=
  if file = "" ∨ config.ignoredFiles.isEmpty then .ok false
  else do
    let resolved ← fs.resolve (Path.ofString file)
    anyEntryIgnores fs base file resolved config.ignoredFiles

/-- Whether some file is ignored; the files are asked in order up to the first that is. -/
def ignoresAnyFile (config : Config) (fs : FileSystem) (base : Option Path) :
    List String → Except FileError Bool
  | [] => .ok false
  | file :: rest => do
    if ← config.ignoresFile fs base file then return true
    config.ignoresAnyFile fs base rest

def ignoreTest (config : Config) (fs : FileSystem) (base : Option Path) : IgnoreTest :=
  fun name files =>
    if config.ignoresVariable name then .ok true else config.ignoresAnyFile fs base files

end EnvAudit.Config
