import EnvAudit.FileSystem.Basic
import EnvAudit.Finding

/-!
# Reports

A report shows what matters of the findings.  A name that is read from the environment anywhere
already exists and is never suggested.  Suggestions that are ignored or below a threshold are left
out; the others stand in order of severity, the highest first, and then of name.
-/

namespace EnvAudit

/-- A variable that is read from the environment. -/
structure ExistingVariable where
  name : String
  files : List String
deriving Repr, DecidableEq

/-- A name whose hard-coded value could come from the environment. -/
structure SuggestedVariable where
  name : String
  severity : Severity
  files : List String
  value : Option String
deriving Repr, DecidableEq

/-- The ordered and filtered view of findings. -/
structure Report where
  existing : List ExistingVariable
  suggested : List SuggestedVariable
deriving Repr, DecidableEq

namespace Report

/-- Whether an entry can be suggested: it has a suggestion and no usage. -/
def isCandidate (e : Entry) : Bool := e.usage.isEmpty && !e.suggested.isEmpty

def filesOf (e : Entry) : List String := (e.suggested.map (·.file)).mergeSort

/-- The suggested variable that an entry shows.  A suggestion without severity counts as low. -/
def suggestionOf (name : String) (e : Entry) : SuggestedVariable where
  name := name
  severity := e.maxSeverity?.getD .low
  files := filesOf e
  value := e.value?

def inOrder (a b : SuggestedVariable) : Bool :=
  b.severity.rank < a.severity.rank || (a.severity.rank == b.severity.rank && a.name ≤ b.name)

/-- The report on findings, without the names that `ignored` holds for and without severities below
the threshold. -/
def build (findings : Findings) (ignored : String → Bool) (threshold : Severity) : Report where
  existing := findings.sortedEntries.filterMap fun (name, e) =>
    if e.usage.isEmpty then none else some ⟨name, e.usage.mergeSort⟩
  suggested :=
    let candidates := findings.sortedEntries.filter fun (name, e) => isCandidate e && !ignored name
    let shown := (candidates.map fun (name, e) => suggestionOf name e).filter fun s =>
      threshold ≤ s.severity
    shown.mergeSort inOrder

def count (r : Report) (severity : Severity) : Nat :=
  (r.suggested.filter (·.severity == severity)).length

def maxSeverity? (r : Report) : Option Severity :=
  r.suggested.foldl (fun highest s => Severity.higher? highest (some s.severity)) none

end Report

/-- A test whether the user wants to hear nothing of a name found in some files.  The files are
looked up, which can fail. -/
abbrev IgnoreTest := (name : String) → (files : List String) → Except FileError Bool

namespace IgnoreTest

def nothing : IgnoreTest := fun _ _ => .ok false

/-- The names among `entries` that are ignored, asked in order. -/
def ignoredNames (test : IgnoreTest) (files : Entry → List String)
    (entries : List (String × Entry)) :
    Except FileError (List String) :=
  entries.filterMapM fun (name, e) => do
    if ← test name (files e) then return some name else return none

def report (test : IgnoreTest) (findings : Findings) (threshold : Severity) :
    Except FileError Report := do
  let candidates := findings.sortedEntries.filter fun (_, e) => Report.isCandidate e
  let ignored ← test.ignoredNames Report.filesOf candidates
  return Report.build findings ignored.contains threshold

end IgnoreTest

end EnvAudit
