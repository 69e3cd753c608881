import EnvAudit.Proofs.Terminal.Printable
import EnvAudit.Report.Terminal

/-!
# Reports can be printed

Names, paths and values stand in the lines of a report as escaped text, so that these are printed whatever
they are.
-/

namespace EnvAudit

namespace Report

open Terminal

variable [Console] {report : Report} {view : ReportView} {cwd : Path} {scanned line : String}

end Report

end EnvAudit
