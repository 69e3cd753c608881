import EnvAudit.Proofs.CommandLine.Scan
import EnvAudit.Proofs.Terminal.Wrapped

/-!
# Scanning twice

A scan that adds to the environment file reads what it has added when it is run again.  All other
files say what they said before, and the names that they suggest are defined by then.  The second
scan therefore adds something exactly if one of the files that were written, the environment file
above all, suggests a name that is not defined.
-/

namespace EnvAudit.CommandLine

open Act TreeScan FileScan

variable {options : ScanOptions} {loudness : Loudness} {fs fs' fs'' : FileSystem}
variable {result : Except Failure Nat} {findings : Findings} {outcome : Dotenv.Outcome}
variable {p q : Path} {name : String}

/-- What a scan writes, the environment file and the report, is written to two different files,
neither of which is a configuration file. -/
structure WritesApart (options : ScanOptions) (fs : FileSystem) : Prop where
  report : ∀ target ∈ options.reportFile?, fs.Apart target (envPath fs)
  config : ∀ file ∈ Settings.candidates fs.cwdPath fs.cwdPath,
    fs.Apart (envPath fs) file ∧ ∀ target ∈ options.reportFile?, fs.Apart target file

/-- The environment file defines a name. -/
def Defines (fs : FileSystem) (name : String) : Prop :=
  ∃ text, Dotenv.content fs (envPath fs) = .ok text ∧ Dotenv.defines text name = true

/-! ## What a scan leaves as it is -/

theorem envPath_eq (h : fs'.cwd = fs.cwd) : envPath fs' = envPath fs := by
  rw [envPath, envPath, FileSystem.cwdPath, FileSystem.cwdPath, h]

theorem Reported.later (h : Reported options fs fs') (hfs : fs.Sound) : fs.Later fs' := by
  rw [Reported] at h
  split at h
  · rw [h]
    exact .refl hfs
  · obtain ⟨text, hwrite⟩ := h
    exact (FileSystem.write_eq_ok_iff.1 hwrite).later hfs

/-- The report touches no other file. -/
theorem Reported.kept (h : Reported options fs fs') (hfs : fs.Sound)
    (hapart : ∀ target ∈ options.reportFile?, fs.Apart target q) :
    fs'.bytes? q = fs.bytes? q ∧ fs'.exists? q = fs.exists? q := by
  rw [Reported] at h
  split at h
  · rw [h]
    exact ⟨rfl, rfl⟩
  · rename_i target htarget
    obtain ⟨text, hwrite⟩ := h
    have hwrote := FileSystem.write_eq_ok_iff.1 hwrite
    have hapart := hapart target htarget
    exact ⟨hwrote.bytes?_of_apart hfs hapart, hwrote.exists?_of_apart hfs hapart⟩

theorem content_congr {text : List Char} (hbytes : fs'.bytes? q = fs.bytes? q)
    (hexists : fs'.exists? q = fs.exists? q) :
    Dotenv.content fs' q = .ok text ↔ Dotenv.content fs q = .ok text := by
  simp only [Dotenv.content_eq_ok_iff, Dotenv.IsText, hbytes, hexists]

theorem Added.later {text : List Char} (h : Dotenv.Added fs p findings text outcome)
    (hfs : fs.Sound) : fs.Later outcome.fileSystem := by
  by_cases hnil : Dotenv.missingNames text findings = []
  · rw [h.kept hnil]
    exact .refl hfs
  · exact (FileSystem.append_eq_ok_iff.1 (h.appended hnil)).later hfs

theorem Added.exists?_eq {text : List Char} (h : Dotenv.Added fs p findings text outcome)
    (hfs : fs.Sound) (hapart : fs.Apart p q) : outcome.fileSystem.exists? q = fs.exists? q := by
  by_cases hnil : Dotenv.missingNames text findings = []
  · rw [h.kept hnil]
  · exact (FileSystem.append_eq_ok_iff.1 (h.appended hnil)).exists?_of_apart hfs hapart

theorem WritesApart.later (h : WritesApart options fs) (hlater : fs.Later fs') :
    WritesApart options fs' := by
  have hcwd : fs'.cwdPath = fs.cwdPath := by
    rw [FileSystem.cwdPath, FileSystem.cwdPath, hlater.cwd_eq]
  constructor
  · intro target htarget
    rw [envPath_eq hlater.cwd_eq, hlater.apart]
    exact h.report target htarget
  · intro file hfile
    rw [hcwd] at hfile
    simp only [envPath_eq hlater.cwd_eq, hlater.apart]
    exact h.config file hfile

section Rules

variable [Yaml.Library] [Pattern.Compiler]

/-- A scan of the files reaches a file that suggests a name, and the environment file does not define
the name. -/
structure Offers (options : ScanOptions) (fs : FileSystem) (p : Path) (name : String) : Prop where
  suggested : ∃ rules entries, options.rulesIn fs = .ok rules ∧
    fs.HoldsDir ⟨.here, []⟩ entries ∧ Scanned fs (TreeScan.skips []) ⟨.here, []⟩ entries p ∧
      Suggests (Config.engineWith rules) fs p name
  undefined : ∃ text, Dotenv.content fs (envPath fs) = .ok text ∧
    Dotenv.defines text name = false

/-- A file, or the rules by which it is read, are not what they were. -/
def Changed (options : ScanOptions) (fs fs' : FileSystem) (p : Path) : Prop :=
  fs'.bytes? p ≠ fs.bytes? p ∨ options.rulesIn fs' ≠ options.rulesIn fs

theorem ScanEnds.later (h : ScanEnds options fs result fs') (hfs : fs.Sound) : fs.Later fs' := by
  cases h with
  | stopped _ => exact .refl hfs
  | refused _ hreported _ _ => exact hreported.later hfs
  | extended _ hreported hextended _ =>
      have hlater := hreported.later hfs
      obtain ⟨text, hadded⟩ := Dotenv.exists_added hextended
      exact hlater.trans (Added.later hadded hlater.sound)

/-- A scan makes no configuration. -/
theorem ScanEnds.unconfigured (h : ScanEnds options fs result fs') (hfs : fs.Sound)
    (hapart : WritesApart options fs) (hbefore : Settings.Unconfigured fs) :
    Settings.Unconfigured fs' := by
  have hcwd : fs'.cwdPath = fs.cwdPath := by
    rw [FileSystem.cwdPath, FileSystem.cwdPath, (h.later hfs).cwd_eq]
  intro file hfile
  rw [hcwd] at hfile
  obtain ⟨henv, hreport⟩ := hapart.config file hfile
  cases h with
  | stopped _ => exact hbefore file hfile
  | refused _ hreported _ _ =>
      rw [(hreported.kept hfs hreport).2]
      exact hbefore file hfile
  | extended _ hreported hextended _ =>
      have hlater := hreported.later hfs
      obtain ⟨text, hadded⟩ := Dotenv.exists_added hextended
      rw [envPath_eq hlater.cwd_eq] at hadded
      rw [Added.exists?_eq hadded hlater.sound (hlater.apart.2 henv), (hreported.kept hfs hreport).2]
      exact hbefore file hfile

/-! ## One scan -/

/-- Which names a scan finds suggested depends on nothing but its options and the files. -/
theorem Found.suggested_of_offers (h : Found options fs findings)
    (hoffers : Offers options fs p name) : (findings.get name).suggested ≠ [] := by
  obtain ⟨rules, entries, hrules, hentries, hsuggested⟩ := h.suggested_iff
  obtain ⟨rules', entries', hrules', hentries', hscanned, hsuggests⟩ := hoffers.suggested
  cases Except.ok.inj (hrules.symm.trans hrules')
  cases Except.ok.inj (hentries.lists.symm.trans hentries'.lists)
  exact (hsuggested name).2 ⟨p, hscanned, hsuggests⟩

/-- A scan has come to add to the environment file, which had not changed until then. -/
structure Extended (options : ScanOptions) (fs reported : FileSystem) (findings : Findings)
    (text : List Char) (outcome : Dotenv.Outcome) : Prop where
  found : Found options fs findings
  later : fs.Later reported
  bytes_eq : reported.bytes? (envPath fs) = fs.bytes? (envPath fs)
  hadText : Dotenv.content fs (envPath fs) = .ok text
  added : Dotenv.Added reported (envPath fs) findings text outcome

theorem exists_extended {reported : FileSystem} (hfs : fs.Sound) (hapart : WritesApart options fs)
    (hfound : Found options fs findings) (hreported : Reported options fs reported)
    (h : Dotenv.append reported (envPath reported) findings .nothing = .ok outcome) :
    ∃ text, Extended options fs reported findings text outcome := by
  have hlater := hreported.later hfs
  obtain ⟨hbytes, hexists⟩ := hreported.kept hfs hapart.report
  obtain ⟨text, hadded⟩ := Dotenv.exists_added h
  rw [envPath_eq hlater.cwd_eq] at hadded
  exact ⟨text, hfound, hlater, hbytes, (content_congr hbytes hexists).1 hadded.hadText, hadded⟩

theorem Extended.mem_missingNames {reported : FileSystem} {text : List Char}
    (h : Extended options fs reported findings text outcome) (hoffers : Offers options fs p name) :
    name ∈ Dotenv.missingNames text findings := by
  obtain ⟨text', htext', hundefined⟩ := hoffers.undefined
  cases Except.ok.inj (h.hadText.symm.trans htext')
  exact (Dotenv.mem_missingNames_iff h.found.wellFormed).2
    ⟨h.found.suggested_of_offers hoffers, hundefined⟩

/-- Where a scan completes that offers something, it adds to the environment file. -/
theorem ScanEnds.exists_extended (h : ScanEnds options fs result fs') (hfs : fs.Sound)
    (hapart : WritesApart options fs) (hcompleted : Completed result) :
    ∃ reported findings text outcome, Extended options fs reported findings text outcome ∧
      fs' = outcome.fileSystem := by
  cases h with
  | stopped hnot => exact absurd hcompleted hnot
  | refused _ _ _ hnot => exact absurd hcompleted hnot
  | extended hfound hreported hextended _ =>
      obtain ⟨text, hadded⟩ :=
        CommandLine.exists_extended hfs hapart hfound hreported hextended
      exact ⟨_, _, text, _, hadded, rfl⟩

/-- A scan changes the environment file exactly if it completes and there is something to offer. -/
theorem ScanEnds.bytes?_ne_iff (h : ScanEnds options fs result fs') (hfs : fs.Sound)
    (hapart : WritesApart options fs) :
    fs'.bytes? (envPath fs) ≠ fs.bytes? (envPath fs) ↔
      Completed result ∧ ∃ p name, Offers options fs p name := by
  constructor
  · intro hne
    cases h with
    | stopped _ => exact absurd rfl hne
    | refused _ hreported _ _ => exact absurd (hreported.kept hfs hapart.report).1 hne
    | @extended findings reported outcome hfound hreported hextended hcompleted =>
        obtain ⟨text, hadded⟩ :=
          CommandLine.exists_extended hfs hapart hfound hreported hextended
        have hmissing : Dotenv.missingNames text findings ≠ [] := by
          intro hnil
          rw [hadded.added.kept hnil] at hne
          exact hne hadded.bytes_eq
        refine ⟨hcompleted (hadded.added.written_eq ▸ hmissing), ?_⟩
        obtain ⟨name, hname⟩ := List.exists_mem_of_ne_nil _ hmissing
        obtain ⟨hsuggested, hundefined⟩ := (Dotenv.mem_missingNames_iff hfound.wellFormed).1 hname
        obtain ⟨rules, entries, hrules, hentries, hfinds⟩ := hfound.suggested_iff
        obtain ⟨p, hscanned, hsuggests⟩ := (hfinds name).1 hsuggested
        exact ⟨p, name, ⟨rules, entries, hrules, hentries, hscanned, hsuggests⟩,
          text, hadded.hadText, hundefined⟩
  · rintro ⟨hcompleted, p, name, hoffers⟩
    obtain ⟨reported, findings, text, outcome, hadded, rfl⟩ :=
      h.exists_extended hfs hapart hcompleted
    have hne := List.ne_nil_of_mem (hadded.mem_missingNames hoffers)
    rw [← hadded.bytes_eq]
    exact hadded.added.bytes?_ne hadded.later.sound hne

/-- A scan defines a new name exactly if it changes the environment file. -/
theorem ScanEnds.exists_defines_iff (h : ScanEnds options fs result fs') (hfs : fs.Sound)
    (hapart : WritesApart options fs) :
    (∃ name, Defines fs' name ∧ ¬ Defines fs name) ↔
      Completed result ∧ ∃ p name, Offers options fs p name := by
  have hlater := h.later hfs
  have henv := envPath_eq hlater.cwd_eq
  constructor
  · rintro ⟨name, ⟨text, htext, hdefines⟩, hnot⟩
    rw [← h.bytes?_ne_iff hfs hapart]
    intro hbytes
    rw [henv, Dotenv.content_eq_ok_iff] at htext
    obtain ⟨raw, hraw, rfl⟩ := htext
    refine hnot ⟨_, Dotenv.content_eq_ok_iff.2 ⟨raw, ?_, rfl⟩, hdefines⟩
    rw [Dotenv.IsText, hbytes] at hraw
    exact hraw.imp (fun ⟨hexists, hnil⟩ => ⟨hlater.exists?_eq_false hexists, hnil⟩) id
  · rintro ⟨hcompleted, p, name, hoffers⟩
    obtain ⟨reported, findings, text, outcome, hadded, rfl⟩ :=
      h.exists_extended hfs hapart hcompleted
    obtain ⟨text', htext', hundefined⟩ := hoffers.undefined
    obtain ⟨_, _, _, _, -, hsuggests⟩ := hoffers.suggested
    obtain ⟨more, hmore, hdefines⟩ := hadded.added.exists_defines hadded.later.sound
      hadded.found.wellFormed (hadded.found.suggested_of_offers hoffers) hsuggests.noReturn
    refine ⟨name, ⟨more, henv ▸ hmore, hdefines⟩, ?_⟩
    rintro ⟨text, htext, hdefined⟩
    cases Except.ok.inj (htext.symm.trans htext')
    rw [hundefined] at hdefined
    cases hdefined

/-! ## Two scans -/

/-- A file that says what it said at an earlier scan, with the same rules, offers nothing once that
scan has added what it found. -/
theorem Extended.not_offers {reported : FileSystem} {text : List Char}
    (h : Extended options fs reported findings text outcome)
    (hrules : options.rulesIn outcome.fileSystem = options.rulesIn fs)
    (hbytes : outcome.fileSystem.bytes? p = fs.bytes? p) :
    ¬ Offers options outcome.fileSystem p name := by
  rintro ⟨⟨rules, entries, hrules', hentries, hscanned, hsuggests⟩, text', htext', hundefined⟩
  have hend := h.later.trans (Added.later h.added h.later.sound)
  obtain ⟨rules₀, entries₀, hrules₀, hentries₀, hfinds⟩ := h.found.suggested_iff
  rw [hrules, hrules₀] at hrules'
  cases Except.ok.inj hrules'
  obtain ⟨hsuggested, bytes, hread⟩ := hsuggests.of_bytes? hbytes.symm
  have hbefore := hscanned.of_evolves hend.evolves hend.cwd_eq hentries₀ hentries hread
  have hfound := (hfinds name).2 ⟨p, hbefore, hsuggested⟩
  obtain ⟨more, hmore, hdefines⟩ :=
    h.added.exists_defines h.later.sound h.found.wellFormed hfound hsuggests.noReturn
  rw [envPath_eq hend.cwd_eq] at htext'
  cases Except.ok.inj (hmore.symm.trans htext')
  rw [hdefines] at hundefined
  cases hundefined

/-- Whatever a second scan offers and adds comes from something that the first scan changed. -/
theorem changed_of_offers {second : Except Failure Nat} (hfs : fs.Sound)
    (hapart : WritesApart options fs) (hfirst : ScanEnds options fs result fs')
    (hsecond : ScanEnds options fs' second fs'') (hrepeat : fs' = fs → second = result)
    (hcompleted : Completed second) (hoffers : Offers options fs' p name) :
    Changed options fs fs' p := by
  have hlater := hfirst.later hfs
  cases hfirst with
  | stopped hnot =>
      rw [hrepeat rfl] at hcompleted
      exact absurd hcompleted hnot
  | refused _ _ hrefused _ =>
      -- The second scan could write where the first one could not.
      obtain ⟨reported, findings, text, outcome, hadded, -⟩ :=
        hsecond.exists_extended hlater.sound (hapart.later hlater) hcompleted
      have hne := List.ne_nil_of_mem (hadded.mem_missingNames hoffers)
      obtain ⟨place, hplace, -⟩ := FileSystem.append_eq_ok_iff.1 (hadded.added.appended hne)
      obtain ⟨outcome, hextended⟩ :=
        Dotenv.exists_append_eq_ok hadded.hadText (hadded.later.writable hplace) _
      cases hrefused.symm.trans hextended
  | extended hfound hreported hextended _ =>
      obtain ⟨text, hadded⟩ := exists_extended hfs hapart hfound hreported hextended
      by_contra hsame
      rw [Changed, not_or, not_not, not_not] at hsame
      exact hadded.not_offers hsame.2 hsame.1 hoffers

section Console

variable [Terminal.Console]

/-- The result of a scan and the files after it. -/
def scanOnce (options : ScanOptions) (loudness : Loudness) (fs : FileSystem) :
    Except Failure Nat × FileSystem :=
  let (result, session) := ((Command.scan options).perform loudness).run.run { fs }
  (result, session.fs)

variable [Terminal.LawfulConsole]

theorem ends_scanOnce (hfs : fs.Sound) (h : Settings.Unconfigured fs)
    (hpath : options.path = ⟨.here, []⟩) (henv : options.envFile = some Request.defaultEnvFile) :
    ScanEnds options fs (scanOnce options loudness fs).1 (scanOnce options loudness fs).2 :=
  gives_scan hfs h hpath henv { fs } rfl

/-- A scan of the working directory that adds to its environment file is run twice, where no
configuration file stands.  The second run adds a variable, and changes the environment file at all,
exactly if it completes and a file that the first run has changed offers a name to it. -/
theorem scan_twice_keeps_iff (hfs : fs.Sound) (hpath : options.path = ⟨.here, []⟩)
    (henv : options.envFile = some Request.defaultEnvFile) (hapart : WritesApart options fs)
    (hconfig : Settings.Unconfigured fs) :
    let first := scanOnce options loudness fs
    let second := scanOnce options loudness first.2
    let grows := Completed second.1 ∧
      ∃ p name, Offers options first.2 p name ∧ Changed options fs first.2 p
    ((∀ name, Defines second.2 name → Defines first.2 name) ↔ ¬ grows) ∧
      (second.2.bytes? (envPath fs) = first.2.bytes? (envPath fs) ↔ ¬ grows) := by
  intro first second grows
  have hfirst : ScanEnds options fs first.1 first.2 := ends_scanOnce hfs hconfig hpath henv
  have hlater := hfirst.later hfs
  have hsecond : ScanEnds options first.2 second.1 second.2 :=
    ends_scanOnce hlater.sound (hfirst.unconfigured hfs hapart hconfig) hpath henv
  have hrepeat : first.2 = fs → second.1 = first.1 := by
    intro heq
    change (scanOnce options loudness first.2).1 = _
    rw [heq]
  have hgrows : grows ↔ Completed second.1 ∧ ∃ p name, Offers options first.2 p name := by
    constructor
    · rintro ⟨hcompleted, p, name, hoffers, -⟩
      exact ⟨hcompleted, p, name, hoffers⟩
    · rintro ⟨hcompleted, p, name, hoffers⟩
      exact ⟨hcompleted, p, name, hoffers,
        changed_of_offers hfs hapart hfirst hsecond hrepeat hcompleted hoffers⟩
  have hbytes := hsecond.bytes?_ne_iff hlater.sound (hapart.later hlater)
  have hdefines := hsecond.exists_defines_iff hlater.sound (hapart.later hlater)
  rw [envPath_eq hlater.cwd_eq] at hbytes
  constructor
  · rw [hgrows, ← hdefines]
    simp only [not_exists, not_and, not_not]
  · rw [hgrows, ← hbytes]
    exact not_not.symm

end Console

end Rules

/-- A project with a script that holds an address, and with what a scan adds for it. -/
def urlEntries (added : List (String × Node)) : List (String × Node) :=
  ("a.js", .file "const dbURL = \"https://api.example.com\";\n".toUTF8) :: added

def urlFiles (added : List (String × Node)) : FileSystem where
  root := .dir [("work", .dir (urlEntries added))]
  cwd := ["work"]

def urlOptions : ScanOptions := { path := ⟨.here, []⟩, envFile := some Request.defaultEnvFile }

open scoped Libraries in
example : Request.read (urlFiles []) ["scan", ".", "--to-env"] =
    .ok (.run {} (.scan urlOptions)) := by
  decide +kernel

open scoped Libraries in
theorem scan_twice_keeps_iff_urlFiles :
    (urlFiles []).Sound ∧ WritesApart urlOptions (urlFiles []) ∧
      Settings.Unconfigured (urlFiles []) ∧
        let first := scanOnce urlOptions {} (urlFiles [])
        let second := scanOnce urlOptions {} first.2
        let grows := Completed second.1 ∧
          ∃ p name, Offers urlOptions first.2 p name ∧ Changed urlOptions (urlFiles []) first.2 p
        ((∀ name, Defines second.2 name → Defines first.2 name) ↔ ¬ grows) ∧
          (second.2.bytes? (envPath (urlFiles [])) = first.2.bytes? (envPath (urlFiles [])) ↔
            ¬ grows) := by
  have hsound : (urlFiles []).Sound := by decide
  have hapart : WritesApart urlOptions (urlFiles []) := by
    refine ⟨fun target htarget => ?_, by decide +kernel⟩
    cases htarget
  have hconfig : Settings.Unconfigured (urlFiles []) := by decide +kernel
  exact ⟨hsound, hapart, hconfig, scan_twice_keeps_iff hsound rfl rfl hapart hconfig⟩

open scoped Libraries in
/-- The line of a name that ends in capitals offers these capitals as another name. -/
theorem offers_url_of_dbURL :
    Offers urlOptions (urlFiles [(".env", .file "dbURL=https://api.example.com\n".toUTF8)])
      ⟨.here, [".env"]⟩ "URL" := by
  refine ⟨⟨[], _, rfl, FileSystem.holdsDir_of_no_parts .here rfl ?_, ⟨?_, ?_, ?_⟩, ?_⟩,
    "dbURL=https://api.example.com\n".toList, ?_, ?_⟩
  · decide
  · exact ⟨[".env"], _, .entry (List.mem_cons_of_mem _ (List.mem_singleton_self _)), rfl⟩
  · decide +kernel
  · decide +kernel
  · rw [Suggests]
    decide +kernel
  · decide +kernel
  · decide +kernel

end EnvAudit.CommandLine
