import EnvAudit.Text.Split

/-!
# File paths

A path is a root and a list of names.  Empty names and single dots vanish on reading, and two dots
stay, since they cannot be resolved without looking at the file system.
-/

namespace EnvAudit

/-- Where a path begins. -/
inductive PathRoot
  /-- At the working directory. -/
  | here
  /-- At the root directory. -/
  | slash
  /-- At the root directory, written with exactly two slashes. -/
  | twoSlashes
deriving Repr, DecidableEq, Inhabited

def PathRoot.spelling : PathRoot → String
  | here => ""
  | slash => "/"
  | twoSlashes => "//"

/-- A file path. -/
structure Path where
  root : PathRoot
  parts : List String
deriving Repr, DecidableEq, Inhabited

namespace Path

def rootOf : List Char → PathRoot
  | '/' :: '/' :: '/' :: _ => .slash
  | '/' :: '/' :: _ => .twoSlashes
  | '/' :: _ => .slash
  | _ => .here

def ofString (spelling : String) : Path where
  root := rootOf spelling.toList
  parts := ((Text.splitOn '/' spelling.toList).map String.ofList).filter fun part =>
    part != "" && part != "."

def toString (p : Path) : String :=
  match p.root, p.parts with
  | .here, [] => "."
  | root, parts => root.spelling ++ "/".intercalate parts

instance : ToString Path := ⟨toString⟩

def isAbsolute (p : Path) : Bool := p.root != .here

def name (p : Path) : String := p.parts.getLast?.getD ""

def parent (p : Path) : Path := { p with parts := p.parts.dropLast }

/-- The second path as seen from the first. -/
def join (base p : Path) : Path :=
  if p.isAbsolute then p else { base with parts := base.parts ++ p.parts }

instance : HDiv Path Path Path := ⟨join⟩

def child (dir : Path) (name : String) : Path := { dir with parts := dir.parts ++ [name] }

/-- The names that lead from `base` to the path, if the path lies below it or is it. -/
def below? (base p : Path) : Option (List String) :=
  if base.root = p.root then go base.parts p.parts else none
where
  go : List String → List String → Option (List String)
    | [], rest => some rest
    | _ :: _, [] => none
    | a :: base, b :: rest => if a = b then go base rest else none

/-- The order of paths: by root and then name by name. -/
def before (a b : Path) : Bool :=
  if a.root = b.root then !b.parts.lex a.parts
  else decide (a.root.spelling ≤ b.root.spelling)

/-- Removes two dots together with the name in front of them.  At the root two dots vanish; a
relative path keeps those that lead out of it.  `done` holds the names already seen, last first. -/
def foldUp (absolute : Bool) (done : List String) : List String → List String
  | [] => done.reverse
  | ".." :: rest =>
    match done with
    | [] => if absolute then foldUp absolute [] rest else foldUp absolute [".."] rest
    | last :: more =>
      if last = ".." then foldUp absolute (".." :: done) rest else foldUp absolute more rest
  | part :: rest => foldUp absolute (part :: done) rest

/-- The path without two dots, by its spelling alone. -/
def normalized (p : Path) : Path := { p with parts := foldUp p.isAbsolute [] p.parts }

/-- The names of an absolute path, and after them those that lead to another one, with two dots for
each step up. -/
def stepsBetween : (start goal : List String) → List String
  | s :: start, g :: goal =>
    if s = g then stepsBetween start goal
    else (s :: start).map (fun _ => "..") ++ (g :: goal)
  | start, goal => start.map (fun _ => "..") ++ goal

/-- The spelling of a path as seen from a directory.  Both are taken from the working directory and
by their spelling alone; the empty path stays empty. -/
def relativeTo (cwd : Path) (spelling start : String) : String :=
  if spelling = "" then spelling
  else
    let goal := (cwd.join (ofString spelling)).normalized
    let start := (cwd.join (ofString start)).normalized
    match stepsBetween start.parts goal.parts with
    | [] => "."
    | steps => "/".intercalate steps

end Path

end EnvAudit
