import EnvAudit.Proofs.Dotenv.Rounds

/-!
# Reports and environment files

A report and an environment file are filled from the same findings by two filters of their own.  They
fit together: what a report suggests is added to the file with the value that the report shows, unless
the file defines it, and what is added beyond that is in use already or below the threshold.
-/

namespace EnvAudit

/-- Whether files are ignored does not depend on their order. -/
theorem leavesOut_filesOf (callback : Option IgnoreCallback) (name : String) (e : Entry) :
    leavesOut callback name (Report.filesOf e) = leavesOut callback name e.files := by
  cases callback with
  | none => rfl
  | some c =>
      have hany : (Report.filesOf e).any c.ignoresFile = e.files.any c.ignoresFile :=
        (List.mergeSort_perm _ _).any_eq
      simp only [leavesOut, Option.any_some, hany]

namespace Dotenv

variable {fs : FileSystem} {p : Path} {text raw : List Char} {name : String}

namespace Round

variable {round : Round} {value : Option String}

/-- The names that the callback leaves out, as a selection of entries. -/
theorem leftOut_eq_namesWhere (round : Round) (text : List Char) :
    round.leftOut text = round.findings.namesWhere fun item =>
      round.leavesOutEntry item && (!item.2.suggested.isEmpty && !defines text item.1) := by
  rw [leftOut, missing, List.filter_filter, Findings.namesWhere]

/-- A name is added if it is suggested, not defined and not left out, with the value of its entry. -/
theorem mem_added_iff (h : round.findings.names.Nodup) :
    (name, value) ∈ round.added text ↔
      (round.findings.get name).suggested ≠ [] ∧ defines text name = false ∧
        round.leavesOutEntry (name, round.findings.get name) = false ∧
          value = (round.findings.get name).value? := by
  have hleft : name ∈ round.leftOut text ↔ name ∈ round.findings.names ∧
      round.leavesOutEntry (name, round.findings.get name) = true ∧
        (round.findings.get name).suggested ≠ [] ∧ defines text name = false := by
    rw [leftOut_eq_namesWhere, Findings.mem_namesWhere_iff h]
    simp
  simp only [added, additions, List.mem_map, List.mem_filter, mem_missing_iff, Prod.mk.injEq,
    Bool.not_eq_true', List.contains_eq_mem, decide_eq_false_iff_not]
  constructor
  · rintro ⟨⟨_, e⟩, ⟨⟨hentry, hsuggested, hundefined⟩, hkept⟩, rfl, rfl⟩
    obtain ⟨hname, rfl⟩ := (Findings.mem_sortedEntries_iff h).1 hentry
    refine ⟨hsuggested, hundefined, eq_false_of_ne_true fun hleaves => hkept ?_, rfl⟩
    exact hleft.2 ⟨hname, hleaves, hsuggested, hundefined⟩
  · rintro ⟨hsuggested, hundefined, hleaves, rfl⟩
    have hname : name ∈ round.findings.names :=
      Findings.mem_names_of_get_ne fun hempty => hsuggested (by rw [hempty])
    refine ⟨(name, round.findings.get name), ⟨⟨?_, hsuggested, hundefined⟩, ?_⟩, rfl, rfl⟩
    · exact (Findings.mem_sortedEntries_iff h).2 ⟨hname, rfl⟩
    · intro hmem
      have hleaves' := (hleft.1 hmem).2.1
      rw [hleaves] at hleaves'
      cases hleaves'

theorem mem_names_iff (h : round.findings.names.Nodup) :
    name ∈ round.names text ↔
      (round.findings.get name).suggested ≠ [] ∧ defines text name = false ∧
        round.leavesOutEntry (name, round.findings.get name) = false := by
  simp only [names, List.mem_map, Prod.exists, exists_and_right, exists_eq_right, mem_added_iff h]
  constructor
  · rintro ⟨_, hsuggested, hundefined, hleaves, -⟩
    exact ⟨hsuggested, hundefined, hleaves⟩
  · rintro ⟨hsuggested, hundefined, hleaves⟩
    exact ⟨_, hsuggested, hundefined, hleaves, rfl⟩

theorem nodup_names_of_nodup (h : round.findings.names.Nodup) (text : List Char) :
    (round.names text).Nodup :=
  (Findings.sortedLT_namesWhere h _).nodup.sublist (names_sublist round text)

/-- The callback leaves out an entry in a round if it leaves it out in a report. -/
theorem leavesOutEntry_eq_false_iff {e : Entry} :
    round.leavesOutEntry (name, e) = false ↔ ∀ c, round.callback = some c →
      c.ignoresName name = false ∧ ∀ s ∈ e.suggested, c.ignoresFile s.file = false := by
  rw [← Report.leavesOut_eq_false_iff, leavesOut_filesOf]
  rfl

end Round

/-- What a report suggests and what is added to an environment file with a text fit together. -/
structure Agree (r : Report) (f : Findings) (threshold : Severity) (text : List Char)
    (added : List (String × Option String)) : Prop where
  once : (added.map (·.1)).Nodup
  added_or_defined : ∀ v ∈ r.suggested, v.name ∈ added.map (·.1) ∨ defines text v.name = true
  same_value : ∀ v ∈ r.suggested, ∀ value, (v.name, value) ∈ added → value = v.value
  used_or_below : ∀ name ∈ added.map (·.1), name ∉ r.suggested.map (·.name) →
    (f.get name).usage ≠ [] ∨
      ∃ severity, IsGreatest (f.get name).severities severity ∧ severity < threshold

theorem agree_build (round : Round) (h : round.findings.names.Nodup) (text : List Char)
    (threshold : Severity) :
    Agree (Report.build round.findings
        (Report.namesLeftOut round.findings round.callback).contains threshold)
      round.findings threshold text (round.added text) := by
  have hexact := Report.exact_build h round.callback threshold
  constructor
  case once => exact Round.nodup_names_of_nodup h text
  case added_or_defined =>
    intro v hv
    obtain ⟨-, hsuggested, hkept, -⟩ := (hexact.mem_suggested v.name).1 (List.mem_map_of_mem hv)
    cases hdefines : defines text v.name with
    | true => exact .inr rfl
    | false =>
        have hleaves := Round.leavesOutEntry_eq_false_iff.2 hkept
        exact .inl ((Round.mem_names_iff h).2 ⟨hsuggested, hdefines, hleaves⟩)
  case same_value =>
    intro v hv value hadded
    obtain ⟨-, -, -, rfl⟩ := (Round.mem_added_iff h).1 hadded
    rw [Report.suggested_build, List.mem_mergeSort] at hv
    exact (congrArg SuggestedVariable.value (Report.eq_suggestionOf_of_mem h hv)).symm
  case used_or_below =>
    intro name hname hnot
    obtain ⟨hsuggested, -, hleaves⟩ := (Round.mem_names_iff h).1 hname
    have hkept := Round.leavesOutEntry_eq_false_iff.1 hleaves
    have hgreatest := Entry.isGreatest_maxSeverity? hsuggested
    by_cases hused : (round.findings.get name).usage = []
    · refine .inr ⟨_, hgreatest, lt_of_not_ge fun hle => hnot ?_⟩
      exact (hexact.mem_suggested name).2 ⟨hused, hsuggested, hkept, _, hgreatest, hle⟩
    · exact .inl hused

/-- Findings are reported and added to an environment file that holds a text or is not there yet, with
the same callback.  Reporting always succeeds, and adding does where the file can be written.  Each name
that is suggested has been added, on a line with the value that the report shows, or was defined in the
file; each name that is added and not suggested is in use or below the threshold. -/
theorem append_agrees_with_report {f : Findings} (hfs : fs.Sound) (hraw : IsText fs p raw)
    (hnames : f.names.Nodup) (callback : Option IgnoreCallback) (threshold : Severity) :
    ∃ r, (IgnoreTest.ofCallback callback).report f threshold = .ok r ∧
      ((∃ place, fs.Writable p place) →
        ∃ outcome, append fs p f (.ofCallback callback) = .ok outcome) ∧
      ∀ outcome, append fs p f (.ofCallback callback) = .ok outcome →
        ∃ added, Agree r f threshold (Text.unifyNewlines raw) added ∧
          outcome.written = added.map (·.1) ∧
            (outcome.written ≠ [] → outcome.fileSystem.bytes? p =
              some ((fs.bytes? p).getD .empty ++ (header ++ "\n".intercalate
                (added.map fun item => line item.1 item.2) ++ "\n").toUTF8)) := by
  refine ⟨_, Report.report_ofCallback f callback threshold, ?_, ?_⟩
  · rintro ⟨place, hplace⟩
    exact Call.exists_append_ofCallback hraw hplace ⟨f, callback⟩
  · intro outcome happend
    have hdone : (Call.mk fs ⟨f, callback⟩ outcome).Done p raw := Call.done hraw happend
    refine ⟨_, agree_build ⟨f, callback⟩ hnames _ threshold, hdone.written_eq, ?_⟩
    intro hne
    exact (FileSystem.append_eq_ok_iff.1 (hdone.appended hne)).bytes?_self hfs

/-- A directory with an environment file that defines one variable. -/
def portFiles : FileSystem where
  root := .dir [("work", .dir [(".env", .file "export PORT=1\n".toUTF8)])]
  cwd := ["work"]

/-- Findings with a variable that the file defines, one that is in use, one of low severity and one with
two values. -/
def portFindings : Findings :=
  ⟨[("TOKEN", { suggested := [⟨"b.js", some "", some .low⟩, ⟨"a.js", some "x y", some .high⟩] }),
    ("PORT", { suggested := [⟨"a.js", some "80", some .medium⟩] }),
    ("MODE", { suggested := [⟨"a.js", none, some .low⟩] }),
    ("HOST", { usage := ["b.js"], suggested := [⟨"a.js", some "h", some .high⟩] })]⟩

theorem append_agrees_with_report_portFiles :
    portFiles.Sound ∧ IsText portFiles ⟨.here, [".env"]⟩ "export PORT=1\n".toList ∧
      portFindings.names.Nodup ∧
        ∃ r outcome added, (IgnoreTest.ofCallback none).report portFindings .medium = .ok r ∧
          append portFiles ⟨.here, [".env"]⟩ portFindings (.ofCallback none) = .ok outcome ∧
            Agree r portFindings .medium (Text.unifyNewlines "export PORT=1\n".toList) added ∧
              outcome.written = added.map (·.1) := by
  have hsound : portFiles.Sound := by decide
  have hbytes : portFiles.bytes? ⟨.here, [".env"]⟩ = some "export PORT=1\n".toUTF8 := by
    decide +kernel
  have htext : IsText portFiles ⟨.here, [".env"]⟩ "export PORT=1\n".toList :=
    .inr ⟨_, hbytes, by decide⟩
  have hnames : portFindings.names.Nodup := by decide
  obtain ⟨r, hreport, hreturns, hagree⟩ :=
    append_agrees_with_report hsound htext hnames none .medium
  obtain ⟨outcome, happend⟩ := hreturns (FileSystem.exists_writable_of_bytes? hbytes)
  obtain ⟨added, hadded, hwritten, -⟩ := hagree outcome happend
  exact ⟨hsound, htext, hnames, r, outcome, added, hreport, happend, hadded, hwritten⟩

end Dotenv

end EnvAudit
