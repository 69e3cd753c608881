import EnvAudit.Json
import EnvAudit.Report

/-!
# Report documents

A report as a JSON document: what was scanned, a summary, the report itself and all findings,
ignored ones included.
-/

namespace EnvAudit.Report

def documentVersion : String := "1.2.0"

def severityField (severity : Option Severity) : Json := Json.ofOption (severity.map (·.name))

def summaryOrder : List Severity := [.critical, .high, .medium, .low]

def summary (r : Report) : Json :=
  .obj
    [ ("existing", .int r.existing.length),
      ("suggested", .int r.suggested.length),
      ("by_severity", .obj (summaryOrder.map fun s => (s.name, .int (r.count s)))),
      ("max_severity", severityField r.maxSeverity?) ]

def suggestionFields (s : Suggestion) : Json :=
  .obj
    [ ("file", .str s.file), ("value", .ofOption s.value), ("severity", severityField s.severity) ]

def findingsFields (findings : Findings) : Json :=
  .obj (findings.sorted.map fun (name, e) =>
    (name, .obj
      [ ("usage", .strings e.usage), ("suggested", .arr (e.suggested.map suggestionFields)) ]))

def document (r : Report) (findings : Findings) (scanPath : String) (scannedFiles : Nat) : Json :=
  .obj
    [ ("version", .str documentVersion),
      ("scan_path", .str scanPath),
      ("scanned_files", .int scannedFiles),
      ("summary", r.summary),
      ("existing", .arr (r.existing.map fun v =>
        .obj [("name", .str v.name), ("files", .strings v.files)])),
      ("suggested", .arr (r.suggested.map fun v =>
        .obj
          [ ("name", .str v.name), ("severity", .str v.severity.name),
            ("files", .strings v.files), ("value", .ofOption v.value) ])),
      ("results", findingsFields findings) ]

end EnvAudit.Report
