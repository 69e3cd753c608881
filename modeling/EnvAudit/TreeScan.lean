import EnvAudit.FileScan
import EnvAudit.FileSystem.Order

/-!
# Scanning a directory tree

The walk goes through a directory in the order of names and down into each directory, but not
through links to directories and not into directories that hold no source of the project.  Every
other file that has a language is scanned, and the findings of all files are put together.  Where the
system refuses to tell what a link leads to, the scan ends.

Directories may be nested to any depth.  An interpreter that limits how deep calls are nested, and a
system that limits the length of a path, end the scan of a tree that goes deeper.
-/

namespace EnvAudit

namespace TreeScan

/-- The names of directories with dependencies, version history and build output. -/
def skippedDirs : List String :=
  ["node_modules", ".git", "dist", "build", ".next", "__pycache__", "venv", ".venv"]

/-- Whether a directory is not gone into; `excluded` holds more names of such directories. -/
def skips (excluded : List String) (name : String) : Bool :=
  skippedDirs.contains name || excluded.contains name

/-- What the walk comes upon. -/
inductive Visit
  | skipped (dir : Path)
  | file (path : Path)
  /-- A link of which the system does not tell what it leads to. -/
  | refused (cause : FileError)
deriving Repr, DecidableEq

mutual

/-- What the walk comes upon at a path that is not the start.  `leadsToDir` tells the links that lead
to directories. -/
def visits (leadsToDir : Path → Except FileError Bool) (skips : String → Bool) (path : Path) :
    Node → List Visit
  | .dir entries =>
    if skips path.name then [.skipped path] else visitsIn leadsToDir skips path entries
  | .link _ =>
    match leadsToDir path with
    | .ok true => []
    | .ok false => [.file path]
    | .error cause => [.refused cause]
  | .file _ | .locked => [.file path]

def visitsIn (leadsToDir : Path → Except FileError Bool) (skips : String → Bool) (dir : Path) :
    List (String × Node) → List Visit
  | [] => []
  | (name, node) :: rest =>
    visits leadsToDir skips (dir.child name) node ++ visitsIn leadsToDir skips dir rest

end

/-- The findings so far and the number of files looked at. -/
structure Outcome where
  findings : Findings := .empty
  scannedFiles : Nat := 0
deriving Repr, DecidableEq

/-- Goes on with what the walk comes upon. -/
def follow (engine : Engine) (fs : FileSystem) (outcome : Outcome) :
    List Visit → Logged (Outcome × Except FileError Unit)
  | [] => pure (outcome, .ok ())
  | .skipped dir :: rest => do
    .say .debug .treeScan s!"Skipping directory {dir}"
    follow engine fs outcome rest
  | .refused cause :: _ => pure (outcome, .error cause)
  | .file path :: rest =>
    match Language.ofPath? path with
    | none => follow engine fs outcome rest
    | some language => do
      let outcome := { outcome with scannedFiles := outcome.scannedFiles + 1 }
      match ← FileScan.scanFile engine fs path language with
      | .error cause => return (outcome, .error cause)
      | .ok none => follow engine fs outcome rest
      | .ok (some found) =>
        follow engine fs { outcome with findings := outcome.findings.merge found } rest

/-- What there is to scan at a path: the file itself, or what the walk through a directory comes
upon. -/
def start (fs : FileSystem) (excluded : List String) (path : Path) :
    Except FileError (List Visit) := do
  if ← fs.isFile path then return [.file path]
  let entries ← fs.list path
  return visitsIn fs.isDir (skips excluded) path (Node.entriesInOrder entries)

def scan (engine : Engine) (fs : FileSystem) (excluded : List String) (path : Path) :
    Logged (Outcome × Except FileError Unit) :=
  match start fs excluded path with
  | .error cause => pure ({}, .error cause)
  | .ok visits => follow engine fs {} visits

end TreeScan

/-- What scans trees, with the number of files that it looked at in the last one. -/
structure Scanner where
  engine : Engine := .builtIn
  excluded : List String := []
  scannedFiles : Nat := 0

/-- Scans a file or a directory tree.  The files are counted afresh; where the scan fails, those
up to then are. -/
def Scanner.scan (s : Scanner) (fs : FileSystem) (path : Path) :
    Logged (Scanner × Except FileError Findings) := do
  let (outcome, result) ← TreeScan.scan s.engine fs s.excluded path
  return ({ s with scannedFiles := outcome.scannedFiles }, result.map fun _ => outcome.findings)

end EnvAudit
