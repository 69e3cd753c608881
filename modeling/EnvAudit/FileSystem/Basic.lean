import EnvAudit.Path
import EnvAudit.Text.Quoted

/-!
# File systems

A file system is a tree of directories, files and symbolic links, together with a working directory.
Looking up a path follows links; a link whose target leads through too many links is a fault, which
also covers links that lead to themselves.

A name can be too long; the spelling of a whole path cannot, although systems limit its length as well.
-/

namespace EnvAudit

/-- What a name in a directory stands for. -/
inductive Node
  | file (bytes : ByteArray)
  /-- A file that the system lets nobody read or write. -/
  | locked
  | dir (entries : List (String × Node))
  | link (target : String)
deriving Inhabited

/-- What can go wrong with a path. -/
inductive FileFault
  | notFound
  | accessDenied
  | notDirectory
  | isDirectory
  | nameTooLong
  | tooManyLinks
deriving Repr, DecidableEq

namespace FileFault

def number : FileFault → Nat
  | notFound => 2
  | accessDenied => 13
  | notDirectory => 20
  | isDirectory => 21
  | nameTooLong => 36
  | tooManyLinks => 40

def words : FileFault → String
  | notFound => "No such file or directory"
  | accessDenied => "Permission denied"
  | notDirectory => "Not a directory"
  | isDirectory => "Is a directory"
  | nameTooLong => "File name too long"
  | tooManyLinks => "Too many levels of symbolic links"

/-- Whether a fault tells that nothing stands at a path.  Every other one leaves open what does. -/
def meansAbsent : FileFault → Bool
  | notFound | notDirectory | tooManyLinks => true
  | accessDenied | isDirectory | nameTooLong => false

end FileFault

/-- Why a file operation failed. -/
inductive FileError
  /-- The system refuses the path, as it was spelled. -/
  | fault (cause : FileFault) (path : String)
  /-- The path holds the character that no path can hold. -/
  | nullCharacter
  /-- The links of a path lead in a circle. -/
  | linkLoop (path : String)
  | notText
deriving Repr, DecidableEq

def FileError.message : FileError → String
  | .fault cause path =>
    s!"[Errno {cause.number}] {cause.words}: " ++ Text.Quoted.quoted path
  | .nullCharacter => "embedded null byte"
  | .linkLoop path => "Symlink loop from " ++ Text.Quoted.quoted path
  | .notText => "undecodable bytes"

namespace Node

def isFile : Node → Bool
  | file _ | locked => true
  | dir _ | link _ => false

def isDir : Node → Bool
  | dir _ => true
  | file _ | locked | link _ => false

/-- The node of a name in a list of entries. -/
def member? (entries : List (String × Node)) (name : String) : Option Node :=
  (entries.find? (·.1 == name)).map (·.2)

/-- The node at the end of a list of names, none of which is a link. -/
def at? : (node : Node) → (names : List String) → Option Node
  | node, [] => some node
  | dir entries, name :: rest =>
    match member? entries name with
    | some node => node.at? rest
    | none => none
  | _, _ :: _ => none

/-- The entries with the node of one name replaced or added. -/
def putEntry (name : String) (node : Node) : List (String × Node) → List (String × Node)
  | [] => [(name, node)]
  | (n, old) :: rest => if n = name then (n, node) :: rest else (n, old) :: putEntry name node rest

/-- The tree with `new` at the end of a list of names.  Directories on the way are made where
nothing stands. -/
def put (new : Node) : (names : List String) → (node : Node) → Node
  | [], _ => new
  | name :: rest, dir entries =>
    dir (putEntry name (new.put rest ((member? entries name).getD (dir []))) entries)
  | name :: rest, _ => dir [(name, new.put rest (dir []))]

end Node

/-- A tree of files and the names that lead to the working directory. -/
structure FileSystem where
  root : Node := .dir []
  cwd : List String := []
deriving Inhabited

namespace FileSystem

/-- The largest number of links on the way to a file. -/
def linkLimit : Nat := 40

def nameLimit : Nat := 255

/-- The names in the spelling of a path, empty ones and dots included. -/
def steps (spelling : String) : List String :=
  (Text.splitOn '/' spelling.toList).map String.ofList

/-- Follows names from a directory; at a link `onLink` goes on, with the directory of the link, its
target and the names left.  Gives the place and what stands there; at the last name there may be
nothing. -/
def walk (root : Node)
    (onLink : (here : List String) → (target : String) → (rest : List String) →
      Except FileFault (List String × Option Node))
    (here : List String) : List String → Except FileFault (List String × Option Node)
  | [] => .ok (here, root.at? here)
  | name :: rest =>
    if name = "" ∨ name = "." then walk root onLink here rest
    else if name = ".." then walk root onLink here.dropLast rest
    else if nameLimit < name.utf8ByteSize then .error .nameTooLong
    else
      match root.at? (here ++ [name]) with
      | none => if rest.isEmpty then .ok (here ++ [name], none) else .error .notFound
      | some (.dir _) => walk root onLink (here ++ [name]) rest
      | some (.link target) => onLink here target rest
      | some file => if rest.isEmpty then .ok (here ++ [name], some file) else .error .notDirectory

/-- Follows names from a directory, links included, of which there may be so many on the way. -/
def follow (root : Node) : (links : Nat) → (here : List String) → (names : List String) →
    Except FileFault (List String × Option Node)
  | 0 => walk root fun _ _ _ => .error .tooManyLinks
  | links + 1 => walk root fun here target rest =>
    follow root links (if target.startsWith "/" then [] else here) (steps target ++ rest)

/-- The place that a spelled path leads to, and what stands there. -/
def locateSpelled (fs : FileSystem) (spelling : String) :
    Except FileFault (List String × Option Node) :=
  if spelling = "" then .error .notFound
  else follow fs.root linkLimit (if spelling.startsWith "/" then [] else fs.cwd) (steps spelling)

/-- The place that a path leads to, and what stands there. -/
def locate (fs : FileSystem) (p : Path) : Except FileFault (List String × Option Node) :=
  fs.locateSpelled p.toString

def stat (fs : FileSystem) (p : Path) : Except FileFault Node := do
  match ← fs.locate p with
  | (_, some node) => .ok node
  | (_, none) => .error .notFound

/-- Whether a path holds the character that no path can hold. -/
def hasNull (p : Path) : Bool := p.parts.any fun part => part.toList.contains '\x00'

/-- What stands at a path, which may be nothing.  The system refuses to tell at every fault but those
that mean that nothing is there. -/
def probe (fs : FileSystem) (p : Path) : Except FileFault (Option Node) :=
  if hasNull p then .ok none
  else
    match fs.stat p with
    | .ok node => .ok (some node)
    | .error fault => if fault.meansAbsent then .ok none else .error fault

/-- Whether what stands at a path passes a test.  A refusal tells the path. -/
def tells (fs : FileSystem) (test : Node → Bool) (p : Path) : Except FileError Bool :=
  ((fs.probe p).map fun node? => node?.any test).mapError fun fault => .fault fault p.toString

def exists? (fs : FileSystem) (p : Path) : Except FileError Bool := fs.tells (fun _ => true) p

def isFile (fs : FileSystem) (p : Path) : Except FileError Bool := fs.tells Node.isFile p

def isDir (fs : FileSystem) (p : Path) : Except FileError Bool := fs.tells Node.isDir p

def read (fs : FileSystem) (p : Path) : Except FileError ByteArray :=
  if hasNull p then .error .nullCharacter
  else
    match fs.stat p with
    | .ok (.file bytes) => .ok bytes
    | .ok .locked => .error (.fault .accessDenied p.toString)
    | .ok _ => .error (.fault .isDirectory p.toString)
    | .error fault => .error (.fault fault p.toString)

def list (fs : FileSystem) (p : Path) : Except FileError (List (String × Node)) :=
  if hasNull p then .error .nullCharacter
  else
    match fs.stat p with
    | .ok (.dir entries) => .ok entries
    | .ok _ => .error (.fault .notDirectory p.toString)
    | .error fault => .error (.fault fault p.toString)

/-- The file system after the bytes of the file at a path are replaced by what `change` makes of
them; a file that is not there begins empty. -/
def modifyFile (fs : FileSystem) (p : Path) (change : ByteArray → ByteArray) :
    Except FileError FileSystem :=
  if hasNull p then .error .nullCharacter
  else
    match fs.locate p with
    | .ok (place, none) => .ok { fs with root := Node.put (.file (change .empty)) place fs.root }
    | .ok (place, some (.file bytes)) =>
      .ok { fs with root := Node.put (.file (change bytes)) place fs.root }
    | .ok (_, some .locked) => .error (.fault .accessDenied p.toString)
    | .ok (_, some _) => .error (.fault .isDirectory p.toString)
    | .error fault => .error (.fault fault p.toString)

/-- The file system after a text is written to the file at a path. -/
def write (fs : FileSystem) (p : Path) (text : String) : Except FileError FileSystem :=
  fs.modifyFile p fun _ => text.toUTF8

/-- The file system after a text is added to the end of the file at a path. -/
def append (fs : FileSystem) (p : Path) (text : String) : Except FileError FileSystem :=
  fs.modifyFile p (· ++ text.toUTF8)

def cwdPath (fs : FileSystem) : Path := ⟨.slash, fs.cwd⟩

/-- Follows names from a directory as far as they lead; names that lead nowhere are kept.  At a link
`onLink` tells where its name and target lead to, and with `false` that they lead no further. -/
def chaseNames (root : Node)
    (onLink : (here : List String) → (name target : String) → List String × Bool)
    (here : List String) : List String → List String × Bool
  | [] => (here, true)
  | name :: rest =>
    if name = "" ∨ name = "." then chaseNames root onLink here rest
    else if name = ".." then chaseNames root onLink here.dropLast rest
    else
      match root.at? (here ++ [name]) with
      | some (.link target) =>
        match onLink here name target with
        | (place, true) => chaseNames root onLink place rest
        | (place, false) => (place ++ rest, false)
      | _ => chaseNames root onLink (here ++ [name]) rest

/-- Follows names from a directory as far as they lead, links included.  `active` holds the links
being followed; if one of them comes again, its place and the names left are the answer, with
`false` to tell so.  `depth` bounds the nesting of links. -/
def chase (root : Node) : (depth : Nat) → (active : List (List String)) → (here : List String) →
    (names : List String) → List String × Bool
  | 0, _ => chaseNames root fun here name _ => (here ++ [name], false)
  | depth + 1, active => chaseNames root fun here name target =>
    let link := here ++ [name]
    if active.contains link then (link, false)
    else chase root depth (link :: active) (if target.startsWith "/" then [] else here) (steps target)

/-- How deep links may be nested when a path is resolved. -/
def chaseDepth : Nat := 500

/-- The absolute path without links and dots that a path stands for.  What does not exist resolves
by its spelling. -/
def resolve (fs : FileSystem) (p : Path) : Except FileError Path :=
  if hasNull p then .error .nullCharacter
  else
    let start := if p.isAbsolute then [] else fs.cwd
    let (place, _) := chase fs.root chaseDepth [] start p.parts
    let resolved := (⟨.slash, place⟩ : Path).normalized
    match fs.stat resolved with
    | .error .tooManyLinks => .error (.linkLoop resolved.toString)
    | _ => .ok resolved

end FileSystem

end EnvAudit
