import EnvAudit.Report
import EnvAudit.Terminal.Console

/-!
# Reports on a terminal

A report is shown as a header, the variables that exist, the suggested ones and a summary.  Of a
value no more than its ends can be seen.
-/

namespace EnvAudit

/-- How much of a report is shown. -/
structure ReportView where
  /-- The values of suggested variables are shown, without their middle. -/
  verbose : Bool := false
  /-- Nothing but suggested variables is shown. -/
  quiet : Bool := false
  /-- Nothing is shown in color. -/
  noColor : Bool := false
deriving Repr, DecidableEq

namespace Report

open Terminal

/-- The number of characters that are seen at either end of a value. -/
def visibleEnd : Nat := 4

/-- A value with stars for all but its ends; a short one is stars altogether. -/
def maskedChars (value : List Char) : List Char :=
  let hidden := value.length - 2 * visibleEnd
  if hidden = 0 then List.replicate value.length '*'
  else value.take visibleEnd ++ List.replicate hidden '*' ++ value.drop (visibleEnd + hidden)

/-- A value with stars for all but its ends. -/
def masked (value : String) : String := String.ofList (maskedChars value.toList)

def tagOf : Severity → String
  | .critical => "red bold"
  | .high => "orange1"
  | .medium => "yellow"
  | .low => "green"

/-- Files as they are listed: as seen from the scanned directory. -/
def fileList (cwd : Path) (scanned : String) (files : List String) : String :=
  ", ".intercalate (files.map fun file => cwd.relativeTo file scanned)

section Lines

variable [Console]

def existingLine (cwd : Path) (scanned : String) (v : ExistingVariable) : String :=
  tagged "green" ("✔ " ++ Console.escape v.name)
    ++ " (used in: " ++ Console.escape (fileList cwd scanned v.files) ++ ")"

def suggestedLine (cwd : Path) (scanned : String) (v : SuggestedVariable) : String :=
  tagged (tagOf v.severity) (Console.escape ("[" ++ v.severity.label ++ "]")) ++ " "
    ++ tagged "yellow" (Console.escape v.name)
    ++ " (found in: " ++ Console.escape (fileList cwd scanned v.files) ++ ")"

/-- The markup line of the value of a suggested variable, if it is shown. -/
def valueLine? (view : ReportView) (v : SuggestedVariable) : Option String :=
  match v.value with
  | some value =>
    if view.verbose && value != "" then
      some ("    " ++ tagged "dim" "Value:" ++ " " ++ Console.escape (masked value))
    else none
  | none => none

/-- The markup lines of the part about variables that exist. -/
def existingPart (r : Report) (view : ReportView) (cwd : Path) (scanned : String) : List String :=
  if r.existing.isEmpty || view.quiet then []
  else
    tagged "bold green" "Existing Environment Variables:"
      :: (r.existing.map (existingLine cwd scanned) ++ [""])

def suggestedPart (r : Report) (view : ReportView) (cwd : Path) (scanned : String) : List String :=
  if r.suggested.isEmpty then
    if view.quiet then []
    else [tagged "green" "No hardcoded values found that should be environment variables."]
  else
    tagged "bold yellow" "⚠ Suggested Environment Variables:"
      :: (r.suggested.flatMap fun v => suggestedLine cwd scanned v :: (valueLine? view v).toList)
      ++ [""]

def summaryPart (r : Report) (view : ReportView) : List String :=
  if view.quiet then []
  else
    let counts := Severity.all.reverse.map fun s => tagged (tagOf s) s!"{s.label}: {r.count s}"
    [tagged "bold" "Summary:",
      s!"  Existing: {r.existing.length} | Suggested: {r.suggested.length} | "
        ++ " | ".intercalate counts]

def header (view : ReportView) (scanned : String) (scannedFiles : Nat) : List Char :=
  let files : List StyledPiece :=
    if scannedFiles = 0 then [] else [⟨"dim", s!"\nFiles analyzed: {scannedFiles}"⟩]
  Console.panel view.noColor "blue"
    (⟨"bold", "Environment Variable Report\n"⟩ :: ⟨"dim", "Scanned: " ++ scanned⟩ :: files)

/-- A report on a terminal.  If there is nothing to suggest, a quiet one is empty. -/
def printout (r : Report) (view : ReportView) (cwd : Path) (scanned : String) (scannedFiles : Nat) :
    Printout :=
  if view.quiet && r.suggested.isEmpty then {}
  else
    let body := printLines view.noColor ("" :: existingPart r view cwd scanned
      ++ suggestedPart r view cwd scanned ++ summaryPart r view)
    { body with text := header view scanned scannedFiles ++ body.text }

end Lines

end Report

end EnvAudit
