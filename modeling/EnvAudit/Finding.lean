import EnvAudit.Severity

/-!
# Findings

What a scan has found, by identifier: the files that read the identifier from the environment, and
the files where it is a hard-coded value that could come from the environment.  Identifiers, files
and suggestions keep the order in which they were first met.  Per identifier and file there is one
suggestion; it keeps the highest severity and the least value recorded for it, so the outcome does
not depend on the order of recording.
-/

namespace EnvAudit

/-- A hard-coded value found in one file. -/
structure Suggestion where
  file : String
  value : Option String := none
  severity : Option Severity := none
deriving Repr, DecidableEq, Inhabited

namespace Suggestion

/-- The lesser of two values, either of which may be absent. -/
def lesser? : Option String → Option String → Option String
  | none, b => b
  | some a, none => some a
  | some a, some b => some (if b < a then b else a)

/-- What two suggestions for one file come to. -/
def combine (old new : Suggestion) : Suggestion where
  file := old.file
  value := lesser? old.value new.value
  severity := Severity.higher? old.severity new.severity

end Suggestion

/-- All that is known about one identifier. -/
structure Entry where
  usage : List String := []
  suggested : List Suggestion := []
deriving Repr, DecidableEq, Inhabited

namespace Entry

/-- Records that a file reads the identifier from the environment. -/
def addUsage (e : Entry) (file : String) : Entry :=
  if e.usage.contains file then e else { e with usage := e.usage ++ [file] }

def suggestionFor? (e : Entry) (file : String) : Option Suggestion :=
  e.suggested.find? (·.file == file)

/-- Adds a suggestion to a list that holds at most one per file. -/
def record (new : Suggestion) : List Suggestion → List Suggestion
  | [] => [new]
  | old :: more =>
    if old.file = new.file then old.combine new :: more else old :: record new more

def addSuggestion (e : Entry) (new : Suggestion) : Entry :=
  { e with suggested := record new e.suggested }

def merge (e other : Entry) : Entry :=
  other.suggested.foldl addSuggestion (other.usage.foldl addUsage e)

def maxSeverity? (e : Entry) : Option Severity :=
  e.suggested.foldl (fun highest s => Severity.higher? highest s.severity) none

/-- The first value that is not empty. -/
def value? (e : Entry) : Option String :=
  (e.suggested.filterMap (·.value)).find? (· != "")

def sorted (e : Entry) : Entry where
  usage := e.usage.mergeSort
  suggested := e.suggested.mergeSort fun a b => a.file ≤ b.file

end Entry

/-- What a scan has found, by identifier. -/
structure Findings where
  entries : List (String × Entry) := []
deriving Repr, DecidableEq, Inhabited

namespace Findings

def empty : Findings := {}

/-- The entry of an identifier, empty if there is none. -/
def get (f : Findings) (name : String) : Entry :=
  ((f.entries.find? (·.1 == name)).map (·.2)).getD {}

/-- Changes the entry of an identifier, or adds one that begins empty. -/
def alter (change : Entry → Entry) (name : String) : List (String × Entry) → List (String × Entry)
  | [] => [(name, change {})]
  | (n, e) :: more => if n = name then (n, change e) :: more else (n, e) :: alter change name more

def modify (f : Findings) (name : String) (change : Entry → Entry) : Findings :=
  ⟨alter change name f.entries⟩

/-- Makes sure that an identifier has an entry. -/
def touch (f : Findings) (name : String) : Findings := f.modify name id

/-- Records that a file reads an identifier from the environment. -/
def addUsage (f : Findings) (name file : String) : Findings := f.modify name (·.addUsage file)

def addSuggestion (f : Findings) (name : String) (s : Suggestion) : Findings :=
  f.modify name (·.addSuggestion s)

def merge (f other : Findings) : Findings :=
  other.entries.foldl (fun f (name, entry) => f.modify name (·.merge entry)) f

def size (f : Findings) : Nat := f.entries.length

def sortedEntries (f : Findings) : List (String × Entry) :=
  f.entries.mergeSort fun a b => a.1 ≤ b.1

def sorted (f : Findings) : List (String × Entry) :=
  f.sortedEntries.map fun (name, entry) => (name, entry.sorted)

end Findings

end EnvAudit
