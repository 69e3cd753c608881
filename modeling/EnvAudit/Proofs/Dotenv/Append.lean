import EnvAudit.Proofs.Dotenv.Definition
import EnvAudit.Proofs.FileSystem.Write
import EnvAudit.Proofs.Report.Selection
import EnvAudit.Proofs.Result
import EnvAudit.Proofs.Text.Utf8

/-!
# Adding to an environment file

Where nothing is ignored, exactly the suggested names are added that the file does not define, and
afterwards the file defines them all.
-/

namespace EnvAudit

theorem IgnoreTest.ignoredNames_nothing (files : Entry → List String)
    (entries : List (String × Entry)) : nothing.ignoredNames files entries = .ok [] := by
  rw [← ofCallback_none, ignoredNames_ofCallback]
  simp [leavesOut]

namespace Dotenv

variable {fs fs' : FileSystem} {p : Path} {text raw : List Char} {findings : Findings}
variable {name : String} {outcome : Outcome}

/-! ## What is added -/

/-- The names that could be added, in order. -/
def missingNames (text : List Char) (findings : Findings) : List String :=
  (missing text findings).map (·.1)

theorem mem_missingNames_iff (h : findings.WellFormed) :
    name ∈ missingNames text findings ↔
      (findings.get name).suggested ≠ [] ∧ defines text name = false := by
  have hnames : missingNames text findings =
      findings.namesWhere fun item => !item.2.suggested.isEmpty && !defines text item.1 := rfl
  rw [hnames, Findings.mem_namesWhere_iff h.names_nodup]
  simp only [Bool.and_eq_true, Bool.not_eq_true', List.isEmpty_eq_false_iff]
  apply and_iff_right_of_imp
  rintro ⟨hsuggested, -⟩
  refine Findings.mem_names_of_get_ne fun hempty => hsuggested ?_
  rw [hempty]

/-- The names and values that are added where nothing is ignored. -/
def unignored (text : List Char) (findings : Findings) : List (String × Option String) :=
  additions text findings ([] : List String).contains

theorem map_fst_unignored (text : List Char) (findings : Findings) :
    (unignored text findings).map (·.1) = missingNames text findings := by
  simp [unignored, additions, missingNames, Function.comp_def]

theorem append_nothing (hcontent : content fs p = .ok text) :
    append fs p findings .nothing =
      if missingNames text findings = [] then .ok { fileSystem := fs, written := [] }
      else do
        let names := missingNames text findings
        let fs' ← fs.append p (addedText (unignored text findings))
        let message := s!"Appended {names.length} suggestion(s) to {p}"
        return { fileSystem := fs', written := names, log := [⟨.debug, .dotenv, message⟩] } := by
  have hignored := IgnoreTest.ignoredNames_nothing (fun e => e.suggested.map (·.file))
    (missing text findings)
  have hnames := map_fst_unignored text findings
  rw [unignored] at hnames
  simp only [append, hcontent, hignored, bind, Except.bind, hnames, List.isEmpty_iff]
  split <;> simp_all [pure, Except.pure, unignored]

/-- What has happened when suggestions were added. -/
structure Added (fs : FileSystem) (p : Path) (findings : Findings) (text : List Char)
    (outcome : Outcome) : Prop where
  hadText : content fs p = .ok text
  written_eq : outcome.written = missingNames text findings
  kept : missingNames text findings = [] → outcome.fileSystem = fs
  appended : missingNames text findings ≠ [] →
    fs.append p (addedText (unignored text findings)) = .ok outcome.fileSystem

theorem exists_added (h : append fs p findings .nothing = .ok outcome) :
    ∃ text, Added fs p findings text outcome := by
  have hsteps := h
  rw [append] at hsteps
  obtain ⟨text, hcontent, -⟩ := bind_eq_ok_iff.1 hsteps
  rw [append_nothing hcontent] at h
  refine ⟨text, ?_⟩
  split at h
  · rename_i hnil
    cases h
    exact ⟨hcontent, hnil.symm, fun _ => rfl, fun hne => absurd hnil hne⟩
  · rename_i hne
    obtain ⟨fs', happend, h⟩ := bind_eq_ok_iff.1 h
    obtain rfl := Except.ok.inj h
    exact ⟨hcontent, rfl, fun hnil => absurd hnil hne, fun _ => happend⟩

/-- Adding is refused only where the file cannot be read as text or written. -/
theorem exists_append_eq_ok {place : List String} (hcontent : content fs p = .ok text)
    (hplace : fs.Writable p place) (findings : Findings) :
    ∃ outcome, append fs p findings .nothing = .ok outcome := by
  have happend : ∃ fs', fs.append p (addedText (unignored text findings)) = .ok fs' :=
    ⟨_, hplace.modifyFile_eq _⟩
  obtain ⟨fs', happend⟩ := happend
  rw [append_nothing hcontent]
  split
  · exact ⟨_, rfl⟩
  · rw [happend]
    exact ⟨_, rfl⟩

/-! ## The file afterwards -/

/-- The text that stands in an environment file; one that is not there is empty. -/
def IsText (fs : FileSystem) (p : Path) (raw : List Char) : Prop :=
  (fs.exists? p = .ok false ∧ raw = []) ∨
    ∃ bytes, fs.bytes? p = some bytes ∧ Text.Utf8.decode? bytes = some raw

theorem exists?_of_bytes? {bytes : ByteArray} (h : fs.bytes? p = some bytes) :
    fs.exists? p = .ok true := by
  obtain ⟨hnull, hnode⟩ := FileSystem.bytes?_eq_some_iff.1 h
  exact FileSystem.exists?_eq_true_iff.2 ⟨hnull, by rw [hnode]; rfl⟩

theorem content_eq_ok_iff :
    content fs p = .ok text ↔ ∃ raw, IsText fs p raw ∧ text = Text.unifyNewlines raw := by
  constructor
  · intro h
    rw [content] at h
    obtain ⟨isThere, hexists, h⟩ := bind_eq_ok_iff.1 h
    cases isThere with
    | true =>
        obtain ⟨bytes, hread, h⟩ := bind_eq_ok_iff.1 h
        have hbytes := FileSystem.bytes?_eq_some_iff_read.2 hread
        split at h
        · rename_i raw hraw
          exact ⟨raw, .inr ⟨bytes, hbytes, hraw⟩, (Except.ok.inj h).symm⟩
        · cases h
    | false => exact ⟨[], .inl ⟨hexists, rfl⟩, (Except.ok.inj h).symm⟩
  · rintro ⟨raw, ⟨hexists, rfl⟩ | ⟨bytes, hbytes, hraw⟩, rfl⟩
    · rw [content, hexists]
      rfl
    · rw [content, exists?_of_bytes? hbytes]
      simp [bind, Except.bind, FileSystem.bytes?_eq_some_iff_read.1 hbytes, hraw]

theorem IsText.append (h : IsText fs p raw) (hfs : fs.Sound) {added : String}
    (happend : fs.append p added = .ok fs') : IsText fs' p (raw ++ added.toList) := by
  have hwritten := (FileSystem.append_eq_ok_iff.1 happend).bytes?_self hfs
  refine .inr ⟨_, hwritten, Text.Utf8.decode?_append_toUTF8 ?_ added⟩
  rcases h with ⟨hexists, rfl⟩ | ⟨bytes, hbytes, hraw⟩
  · have hnone : fs.bytes? p = none := by
      rw [Option.eq_none_iff_forall_ne_some]
      intro bytes hbytes
      rw [exists?_of_bytes? hbytes] at hexists
      cases hexists
    rw [hnone, Text.Utf8.decode?_eq_some_iff]
    rfl
  · rwa [hbytes]

/-- Once suggestions were added, the file defines all names that are suggested. -/
theorem Added.exists_defines (h : Added fs p findings text outcome) (hfs : fs.Sound)
    (hfindings : findings.WellFormed) (hsuggested : (findings.get name).suggested ≠ [])
    (hname : '\r' ∉ name.toList) :
    ∃ more, content outcome.fileSystem p = .ok more ∧ defines more name = true := by
  obtain ⟨raw, hraw, htext⟩ := content_eq_ok_iff.1 h.hadText
  by_cases hnil : missingNames text findings = []
  · have hnotMem : name ∉ missingNames text findings := by simp [hnil]
    rw [mem_missingNames_iff hfindings, not_and] at hnotMem
    rw [h.kept hnil]
    exact ⟨text, h.hadText, by simpa using hnotMem hsuggested⟩
  · have hafter := hraw.append hfs (h.appended hnil)
    refine ⟨_, content_eq_ok_iff.2 ⟨_, hafter, rfl⟩, ?_⟩
    by_cases hdefines : defines text name = true
    · rw [htext] at hdefines
      exact defines_of_prefix (Text.unifyNewlines_prefix _ _) hdefines
    · rw [Bool.not_eq_true] at hdefines
      have hmem := (mem_missingNames_iff hfindings).2 ⟨hsuggested, hdefines⟩
      rw [← map_fst_unignored] at hmem
      obtain ⟨⟨_, value⟩, hadded, rfl⟩ := List.mem_map.1 hmem
      exact defines_addedText hname hadded raw

theorem size_addedText_pos (added : List (String × Option String)) :
    0 < (addedText added).toUTF8.size := by
  rw [String.toUTF8_eq_toByteArray, String.size_toByteArray, addedText, String.utf8ByteSize_append]
  exact Nat.add_pos_right _ (by decide)

/-- Whatever is added, the file grows. -/
theorem ne_some_append_addedText (old : Option ByteArray) (added : List (String × Option String)) :
    old ≠ some (old.getD .empty ++ (addedText added).toUTF8) := by
  have hpos := size_addedText_pos added
  cases old with
  | none => simp
  | some bytes =>
      intro heq
      have hsize := congrArg ByteArray.size (Option.some.inj heq)
      rw [Option.getD_some, ByteArray.size_append] at hsize
      omega

theorem Added.bytes?_ne (h : Added fs p findings text outcome) (hfs : fs.Sound)
    (hne : missingNames text findings ≠ []) : outcome.fileSystem.bytes? p ≠ fs.bytes? p := by
  rw [(FileSystem.append_eq_ok_iff.1 (h.appended hne)).bytes?_self hfs]
  exact (ne_some_append_addedText _ _).symm

/-- The files stay as they are exactly if there is nothing to write. -/
theorem fileSystem_eq_iff {test : IgnoreTest} (h : append fs p findings test = .ok outcome) :
    outcome.fileSystem = fs ↔ outcome.written = [] := by
  cases hcontent : content fs p with
  | error cause => simp [append, hcontent, bind, Except.bind] at h
  | ok text =>
      cases hignored : test.ignoredNames (fun e => e.suggested.map (·.file)) (missing text findings) with
      | error cause => simp [append, hcontent, hignored, bind, Except.bind] at h
      | ok ignored =>
          simp only [append, hcontent, hignored, bind, Except.bind] at h
          split at h
          · rename_i hempty
            obtain rfl := Except.ok.inj h
            exact iff_of_true rfl (List.isEmpty_iff.1 hempty)
          · rename_i hne
            split at h
            · cases h
            · rename_i fs' happend
              obtain rfl := Except.ok.inj h
              refine iff_of_false ?_ fun hnil => hne (List.isEmpty_iff.2 hnil)
              exact (FileSystem.append_eq_ok_iff.1 happend).ne (ne_some_append_addedText _ _)

end Dotenv

end EnvAudit
