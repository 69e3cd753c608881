import EnvAudit.Proofs.CommandLine.Formats
import EnvAudit.Proofs.CommandLine.Output
import EnvAudit.Proofs.Json.RoundTrip
import EnvAudit.Proofs.Report.Consistent

/-!
# One document on standard output

A scan that reports as a document prints nothing before it, and the document agrees with itself.  What can
follow it is a note about an environment file, which is meant for a reader: with a note the output is no
document any more.
-/

namespace EnvAudit

namespace CommandLine

open Act

variable {fs fs' : FileSystem} {options : ScanOptions} {loudness : Loudness} {settings : Settings}
  {engine : Engine} {findings : Findings}

/-! ## Before the report -/

section Preparation

variable [Yaml.Library] [Pattern.Compiler]

theorem silent_engineFor (config : Config) (more : List Path) : Silent (engineFor config more) :=
  silent_files.bind fun _ => (silent_logged _).bind fun _ => (silent_document _).bind fun _ =>
    (silent_logged _).bind fun _ => (silent_document _).bind fun _ => silent_pure _

omit [Pattern.Compiler] in
theorem silent_settingsFor (path : Path) : Silent (settingsFor path) := by
  intro s
  rw [run_settingsFor]

variable [Terminal.Console]

theorem silent_prepare (hjson : options.format = .json) : Silent (prepare options loudness) := by
  rw [prepare]
  refine (silent_settingsFor _).bind fun loaded => ?_
  have hengine : Silent (do return (loaded.1, ← engineFor loaded.1.config options.ruleFiles)) :=
    (silent_engineFor _ _).bind fun _ => silent_pure _
  dsimp only
  split
  · rw [if_neg (by simp [hjson])]
    exact hengine
  · exact hengine

theorem reads_prepare_of_any : Reads fs (prepare options loudness) fun _ => True := by
  cases hfound : (Settings.load {} fs options.path).value.2 with
  | error cause =>
      have hsettings : Yields fs (settingsFor options.path) _ := yields_settingsFor options.path
      rw [hfound] at hsettings
      rw [prepare]
      exact hsettings.bind_error.weaken fun _ _ h => ⟨h.2, fun _ _ => trivial⟩
  | ok found => exact (reads_prepare_of_load (Prod.ext rfl hfound)).imp fun _ _ => trivial

end Preparation

section Findings

variable [Terminal.Console]

theorem silent_findingsOf (hjson : options.format = .json) :
    Silent (findingsOf options loudness settings engine) := by
  have hannounce : Silent (announce options loudness) := by
    rw [announce, if_neg (by simp [hjson])]
    exact silent_pure _
  exact hannounce.bind fun _ => silent_files.bind fun _ => (silent_logged _).bind fun _ =>
    (silent_file _).bind fun _ => silent_pure _

theorem reads_findingsOf_wellFormed :
    Reads fs (findingsOf options loudness settings engine) (·.1.WellFormed) := by
  rw [findingsOf]
  refine reads_announce.seq fun _ _ => gives_files_bind (gives_logged_bind ?_)
  refine (reads_file _).seq fun found hfound => reads_pure ?_
  exact Scanner.wellFormed_of_scan hfound

end Findings

theorem silent_reportOn : Silent (reportOn options settings findings) := by
  rw [reportOn]
  split
  · exact (silent_pure _).bind fun _ => silent_files.bind fun _ => silent_file _
  · exact (silent_logged _).bind fun _ => silent_files.bind fun _ => silent_file _

theorem reads_reportOn_build : Reads fs (reportOn options settings findings) fun report =>
    ∃ ignored threshold, report = Report.build findings ignored threshold := by
  refine reads_reportOn.imp ?_
  rintro report ⟨threshold, hreport⟩
  simp only [IgnoreTest.report, bind, Except.bind, pure, Except.pure] at hreport
  split at hreport
  · cases hreport
  · exact ⟨_, threshold, (Except.ok.inj hreport).symm⟩

/-! ## The report and the note -/

/-- What stands behind a document: a note if the scan is asked to add to an environment file, unless it adds
nothing and is quiet. -/
structure Noted (options : ScanOptions) (loudness : Loudness) (fs fs' : FileSystem) (note : List Char) :
    Prop where
  nil_iff : note = [] ↔ options.envFile = none ∨ (loudness.quiet = true ∧ fs' = fs)
  nil_of_blank : note.all Json.isBlank = true → note = []

theorem Noted.of_mem {note : List Char} {c : Char} (hc : c ∈ note) (hblank : Json.isBlank c = false)
    (htold : ¬ (options.envFile = none ∨ (loudness.quiet = true ∧ fs' = fs))) :
    Noted options loudness fs fs' note where
  nil_iff := iff_of_false (List.ne_nil_of_mem hc) htold
  nil_of_blank hall := absurd (List.all_eq_true.1 hall c hc) (by simp [hblank])

section Console

variable [Terminal.Console]

/-- Whether the path is a directory is asked for the report; if this is not told, nothing is printed. -/
theorem prints_showReport (hjson : options.format = .json) (houtput : options.output = none)
    (report : Report) (findings : Findings) (scannedFiles : Nat) :
    Prints fs (showReport options loudness report findings scannedFiles) fun result fs' printed =>
      (result = .ok () ∧ fs' = fs ∧ ∃ scanned,
        printed = ((report.document findings scanned scannedFiles).toText .indented ++ "\n").toList) ∨
          (∃ cause, result = .error cause) ∧ printed = [] := by
  rw [showReport]
  apply prints_files_bind
  refine (reads_file _).prints_bind (silent_file _) (fun isDir _ => ?_) fun _ => .inr ⟨⟨_, rfl⟩, rfl⟩
  dsimp only
  rw [hjson]
  dsimp only
  rw [houtput]
  exact prints_echo (.inl ⟨rfl, rfl, _, rfl⟩)

variable [Terminal.LawfulConsole]

/-- A note is printed with the letter behind the tag that it begins with, if it is printed. -/
theorem prints_note (style front : String) (c : Char) {opening : String}
    (hopening : opening = "[" ++ style ++ "]" ++ front) (hstyle : style ∈ Terminal.styles)
    (hc : c ∈ front.toList.head?) (hletter : c.isAlpha = true) (rest : String) :
    Prints fs (print (opening ++ rest)) fun result fs' printed =>
      fs' = fs ∧ (result = .ok () ∧ c ∈ printed ∨ (∃ cause, result = .error cause) ∧ printed = []) := by
  have hhead : c ∈ (front ++ rest).toList.head? := by
    rw [String.toList_append]
    exact List.mem_head?_append_of_mem_head? hc
  rw [hopening, String.append_assoc]
  exact prints_print_styled hstyle hhead hletter

theorem prints_extendEnvFile {name : String} (henv : options.envFile = some name) :
    Prints fs (extendEnvFile name loudness settings findings) fun result fs' printed =>
      (result = .ok () ∧ Noted options loudness fs fs' printed) ∨
        (∃ cause, result = .error cause) ∧ printed = [] := by
  rw [extendEnvFile]
  apply prints_files_bind
  refine (reads_file _).prints_bind (silent_file _) ?_ fun cause => .inr ⟨⟨_, rfl⟩, rfl⟩
  intro outcome hextended
  have hfiles := Dotenv.fileSystem_eq_iff hextended
  apply prints_setFiles_bind
  apply prints_logged_bind
  split
  · rename_i hadded
    simp only [String.append_assoc]
    refine (prints_note "yellow" "Added " 'A' (by decide) (by decide) (by decide) (by decide) _).weaken ?_
    rintro result _ printed ⟨rfl, ⟨rfl, hmem⟩ | hfailed⟩
    · refine .inl ⟨rfl, Noted.of_mem hmem (by decide) ?_⟩
      rintro (hnone | ⟨-, hsame⟩)
      · cases henv.symm.trans hnone
      · rw [hfiles.1 hsame] at hadded
        cases hadded
    · exact .inr hfailed
  · rename_i hadded
    have hsame : outcome.fileSystem = fs := hfiles.2 (by simpa using hadded)
    split
    · rename_i hloud
      simp only [String.append_assoc]
      refine (prints_note "dim" "No new suggestions to add to " 'N' (by decide) (by decide) (by decide)
        (by decide) _).weaken ?_
      rintro result _ printed ⟨rfl, ⟨rfl, hmem⟩ | hfailed⟩
      · refine .inl ⟨rfl, Noted.of_mem hmem (by decide) ?_⟩
        rintro (hnone | ⟨hquiet, -⟩)
        · cases henv.symm.trans hnone
        · rw [hquiet] at hloud
          cases hloud
      · exact .inr hfailed
    · rename_i hquiet
      refine prints_pure (.inl ⟨rfl, ?_, fun _ => rfl⟩)
      exact iff_of_true rfl (.inr ⟨by simpa using hquiet, hsame⟩)

end Console

/-! ## The scan -/

/-- What a scan prints, by the way it ends. -/
inductive ScanPrints (options : ScanOptions) (loudness : Loudness) (fs : FileSystem) :
    Except Failure Nat → FileSystem → List Char → Prop
  | reported {document : Json} {parts : Report.DocumentParts} {code : Nat} {fs' : FileSystem}
      {note : List Char} (hconsistent : Report.Consistent document parts)
      (hnote : Noted options loudness fs fs' note) :
      ScanPrints options loudness fs (.ok code) fs' ((document.toText .indented ++ "\n").toList ++ note)
  /-- Nothing could be reported. -/
  | failed {cause : Failure} {fs' : FileSystem} : ScanPrints options loudness fs (.error cause) fs' []
  /-- The report is there, but not what the environment file was to be added. -/
  | unfinished {document : Json} {parts : Report.DocumentParts} {cause : Failure} {fs' : FileSystem}
      {printed : List Char} (hconsistent : Report.Consistent document parts)
      (henv : options.envFile ≠ none) (hprinted : printed = (document.toText .indented ++ "\n").toList) :
      ScanPrints options loudness fs (.error cause) fs' printed
  /-- The system has refused a file. -/
  | refused {fs' : FileSystem} {printed : List Char} : ScanPrints options loudness fs (.ok 2) fs' printed

theorem ScanPrints.of_error {cause cause' : Failure} {fs'' : FileSystem} {printed : List Char}
    (h : ScanPrints options loudness fs (.error cause) fs' printed) :
    ScanPrints options loudness fs (.error cause') fs'' (printed ++ []) := by
  rw [List.append_nil]
  cases h with
  | failed => exact .failed
  | unfinished hconsistent henv hprinted => exact .unfinished hconsistent henv hprinted

section Libraries

variable [Yaml.Library] [Pattern.Compiler] [Terminal.Console] [Terminal.LawfulConsole]

theorem prints_scanPath (hjson : options.format = .json) (houtput : options.output = none) :
    Prints fs (scanPath options loudness) (ScanPrints options loudness fs) := by
  rw [scanPath]
  refine reads_prepare_of_any.prints_bind (silent_prepare hjson) ?_ fun _ => .failed
  rintro ⟨settings, engine⟩ -
  refine reads_findingsOf_wellFormed.prints_bind (silent_findingsOf hjson) ?_ fun _ => .failed
  rintro ⟨findings, scannedFiles⟩ hfindings
  refine reads_reportOn_build.prints_bind silent_reportOn ?_ fun _ => .failed
  rintro report ⟨ignored, threshold, rfl⟩
  refine (prints_showReport hjson houtput _ findings scannedFiles).bind ?_ ?_
  · rintro _ _ before (⟨-, rfl, scanned, hbefore⟩ | ⟨⟨_, heq⟩, -⟩)
    rotate_left
    · cases heq
    obtain ⟨parts, hparts⟩ := Report.consistent_document hfindings.names_nodup ignored threshold scanned
      scannedFiles
    generalize (Report.build findings ignored threshold).document findings scanned scannedFiles = document
      at hbefore hparts
    subst hbefore
    cases henv : options.envFile with
    | none =>
        refine prints_pure (.reported hparts ⟨iff_of_true rfl (.inl henv), fun _ => rfl⟩)
    | some name =>
        refine (prints_extendEnvFile henv).bind ?_ ?_
        · rintro _ fs' note (⟨-, hnote⟩ | ⟨⟨_, heq⟩, -⟩)
          · apply prints_pure
            rw [List.append_nil]
            exact .reported hparts hnote
          · cases heq
        · rintro cause fs' _ (⟨heq, -⟩ | ⟨-, rfl⟩)
          · cases heq
          · exact .unfinished hparts (by simp [henv]) (List.append_nil _)
  · rintro cause _ _ (⟨heq, -⟩ | ⟨-, rfl⟩)
    · cases heq
    · exact .failed

theorem prints_scan (hjson : options.format = .json) (houtput : options.output = none) :
    Prints fs (scan options loudness) (ScanPrints options loudness fs) := by
  rw [scan]
  refine (prints_scanPath hjson houtput).handled (fun _ _ _ h => h) ?_
  intro cause fs' before h
  split
  · apply prints_logged_bind
    have htold : ∀ markup, Prints fs' (print markup) fun result fs'' printed =>
        result = .ok () ∨ (∃ cause, result = .error cause) ∧ printed = [] := by
      intro markup
      exact prints_print (fun _ _ => .inl rfl) (.inr ⟨⟨_, rfl⟩, rfl⟩)
    refine (htold _).bind (fun _ _ _ _ => prints_pure .refused) ?_
    rintro _ _ _ (heq | ⟨-, rfl⟩)
    · cases heq
    · exact h.of_error
  · exact prints_throw h.of_error

end Libraries

/-! ## The output -/

/-- What has been printed is a document and a note: the document agrees with itself, there is a note only
about an environment file, and the output is one document exactly if there is none. -/
structure PrintsDocument (options : ScanOptions) (loudness : Loudness) (fs : FileSystem) (ending : Ending)
    (document : Json) (note : String) : Prop where
  consistent : ∃ parts, Report.Consistent document parts
  output_eq : ending.output = document.toText .indented ++ "\n" ++ note
  note_eq_iff : note = "" ↔ options.envFile = none ∨ (loudness.quiet = true ∧ ending.fs = fs)
  read?_output : Json.read? ending.output = if note = "" then some document else none

theorem PrintsDocument.note_ne {ending : Ending} {document : Json} {note : String}
    (h : PrintsDocument options loudness fs ending document note) (henv : options.envFile ≠ none)
    (hloud : loudness.quiet = false) : note ≠ "" := by
  intro hnote
  rcases h.note_eq_iff.1 hnote with hnone | ⟨hquiet, -⟩
  · exact henv hnone
  · exact Bool.false_ne_true (hloud.symm.trans hquiet)

/-- A document and a note behind it are one document only if there is no note. -/
theorem read?_document_append_note (document : Json) {note : String}
    (hnote : note.toList.all Json.isBlank = true → note = "") :
    Json.read? (document.toText .indented ++ "\n" ++ note) = if note = "" then some document else none := by
  have hends : Json.Ends ("\n" ++ note).toList := by
    rw [String.toList_append]
    rintro c ⟨⟩
    rfl
  have hblank : ("\n" ++ note).toList.all Json.isBlank = note.toList.all Json.isBlank := by
    rw [String.toList_append, List.all_append]
    rfl
  rw [String.append_assoc, Json.read?_toText_append document .indented hends, hblank]
  by_cases hempty : note = ""
  · rw [if_pos hempty, hempty]
    rfl
  · rw [if_neg hempty, if_neg fun hall => hempty (hnote hall)]

section Libraries

variable [Yaml.Library] [Pattern.Compiler] [Terminal.Console] [Terminal.LawfulConsole] [ArgumentParser]

/-- The program ends a scan with what the scan has printed. -/
theorem exists_scanPrints_run {args : List String} (input : List String)
    (h : Request.read fs args = .ok (.run loudness (.scan options))) (hjson : options.format = .json)
    (houtput : options.output = none) :
    ∃ result printed, ScanPrints options loudness fs result (run args input fs).fs printed ∧
      (run args input fs).output = String.ofList printed ∧
        match result with
        | .ok code => (run args input fs).exitCode = code ∧ (run args input fs).error = none
        | .error cause => (run args input fs).error = some (.failure cause) := by
  have hprints : Prints fs (scan options loudness) (ScanPrints options loudness fs) :=
    prints_scan hjson houtput
  obtain ⟨printed, hprinted, hends⟩ := hprints { fs, input } rfl
  rw [run, h]
  dsimp only [Command.perform]
  generalize (scan options loudness).run.run { fs, input } = ending at hprinted hends
  obtain ⟨result, after⟩ := ending
  refine ⟨result, printed, ?_⟩
  cases result with
  | ok code => exact ⟨hends, congrArg String.ofList hprinted, rfl, rfl⟩
  | error cause => exact ⟨hends, congrArg String.ofList hprinted, rfl⟩

/-- A scan that ends well has printed a document, and perhaps a note. -/
theorem exists_printsDocument {args : List String} (input : List String)
    (h : Request.read fs args = .ok (.run loudness (.scan options))) (hjson : options.format = .json)
    (houtput : options.output = none) (hcode : (run args input fs).exitCode ≤ 1)
    (herror : (run args input fs).error = none) :
    ∃ document note, PrintsDocument options loudness fs (run args input fs) document note := by
  obtain ⟨result, printed, hprints, hprinted, hresult⟩ := exists_scanPrints_run input h hjson houtput
  generalize run args input fs = ending at *
  cases hprints with
  | @reported document _ _ _ note hconsistent hnote =>
      have hempty : String.ofList note = "" ↔ note = [] := String.ofList_eq_empty_iff
      have houtput : ending.output = document.toText .indented ++ "\n" ++ String.ofList note := by
        rw [hprinted, String.ofList_append, String.ofList_toList]
      have hblank : (String.ofList note).toList.all Json.isBlank = true → String.ofList note = "" := by
        rw [String.toList_ofList, hempty]
        exact hnote.nil_of_blank
      refine ⟨document, String.ofList note, ⟨_, hconsistent⟩, houtput, hempty.trans hnote.nil_iff, ?_⟩
      rw [houtput, read?_document_append_note document hblank]
  | failed | unfinished => cases herror.symm.trans hresult
  | refused =>
      rw [hresult.1] at hcode
      cases Nat.not_succ_le_self 1 hcode

/-- A scan that fails has printed nothing, or the document if only the environment file was left. -/
theorem output_of_error {args : List String} (input : List String)
    (h : Request.read fs args = .ok (.run loudness (.scan options))) (hjson : options.format = .json)
    (houtput : options.output = none) (herror : (run args input fs).error ≠ none) :
    (run args input fs).output = "" ∨ options.envFile ≠ none ∧ ∃ document parts,
      Report.Consistent document parts ∧ (run args input fs).output = document.toText .indented ++ "\n" := by
  obtain ⟨result, printed, hprints, hprinted, hresult⟩ := exists_scanPrints_run input h hjson houtput
  cases hprints with
  | reported | refused => exact absurd hresult.2 herror
  | failed => exact .inl hprinted
  | @unfinished document parts _ _ _ hconsistent henv heq =>
      rw [heq, String.ofList_toList] at hprinted
      exact .inr ⟨henv, document, parts, hconsistent, hprinted⟩

/-- A scan that reports as a document to standard output prints one document that agrees with itself if it is
not asked to add to an environment file, or if it adds nothing and is quiet; else a note follows the document,
and the output is no document.  A scan that fails has printed nothing, or the document if only the environment
file was left. -/
theorem output_of_json {args : List String} (input : List String)
    (h : Request.read fs args = .ok (.run loudness (.scan options))) (hjson : options.format = .json)
    (houtput : options.output = none) (hcode : (run args input fs).exitCode ≤ 1) :
    ((run args input fs).error = none →
        ∃ document note, PrintsDocument options loudness fs (run args input fs) document note) ∧
      ((run args input fs).error ≠ none →
        (run args input fs).output = "" ∨ options.envFile ≠ none ∧ ∃ document parts,
          Report.Consistent document parts ∧
            (run args input fs).output = document.toText .indented ++ "\n") :=
  ⟨exists_printsDocument input h hjson houtput hcode, output_of_error input h hjson houtput⟩

end Libraries

/-- A directory with a file that holds a value. -/
def valueFiles : FileSystem where
  root := .dir [("a.js", .file "const dbPassword = \"hunter2\";\n".toUTF8)]

/-- What a scan of these files is asked for. -/
def valueOptions : ScanOptions := { path := ⟨.here, []⟩, format := .json }

open scoped Libraries in
theorem read_valueFiles : Request.read valueFiles ["scan", ".", "--format", "json", "--to-env"] =
    .ok (.run {} (.scan { valueOptions with envFile := some Request.defaultEnvFile })) := by decide +kernel

open scoped Libraries in
theorem ends_valueFiles :
    (run ["scan", ".", "--format", "json", "--to-env"] [] valueFiles).exitCode = 0 ∧
      (run ["scan", ".", "--format", "json", "--to-env"] [] valueFiles).error.isNone = true := by
  decide +kernel

open scoped Libraries in
/-- Without an environment file the output is one document, with one there is a note. -/
theorem output_of_json_valueFiles :
    (∃ document, Json.read? (run ["scan", ".", "--format", "json"] [] valueFiles).output = some document) ∧
      ∃ document note, note ≠ "" ∧
        PrintsDocument { valueOptions with envFile := some Request.defaultEnvFile } {} valueFiles
          (run ["scan", ".", "--format", "json", "--to-env"] [] valueFiles) document note := by
  constructor
  · have hends : (run ["scan", ".", "--format", "json"] [] valueFiles).exitCode = 0 ∧
        (run ["scan", ".", "--format", "json"] [] valueFiles).error.isNone = true := by decide +kernel
    have hread : Request.read valueFiles ["scan", ".", "--format", "json"] =
        .ok (.run {} (.scan valueOptions)) := by decide +kernel
    obtain ⟨document, note, hprints⟩ := (output_of_json [] hread rfl rfl
      (hends.1.trans_le (Nat.zero_le 1))).1 (Option.isNone_iff_eq_none.1 hends.2)
    exact ⟨document, hprints.read?_output.trans (if_pos (hprints.note_eq_iff.2 (.inl rfl)))⟩
  · obtain ⟨document, note, hprints⟩ := (output_of_json [] read_valueFiles rfl rfl
      (ends_valueFiles.1.trans_le (Nat.zero_le 1))).1 (Option.isNone_iff_eq_none.1 ends_valueFiles.2)
    exact ⟨document, note, hprints.note_ne nofun rfl, hprints⟩

open scoped Libraries in
/-- With a note about an environment file, the output of a scan that ends well is no document. -/
theorem read?_output_eq_none :
    (run ["scan", ".", "--format", "json", "--to-env"] [] valueFiles).exitCode = 0 ∧
      Json.read? (run ["scan", ".", "--format", "json", "--to-env"] [] valueFiles).output = none := by
  obtain ⟨document, note, hprints⟩ := exists_printsDocument [] read_valueFiles rfl rfl
    (ends_valueFiles.1.trans_le (Nat.zero_le 1)) (Option.isNone_iff_eq_none.1 ends_valueFiles.2)
  exact ⟨ends_valueFiles.1, hprints.read?_output.trans (if_neg (hprints.note_ne nofun rfl))⟩

end CommandLine

end EnvAudit
