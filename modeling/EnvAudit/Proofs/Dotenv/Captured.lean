import EnvAudit.Proofs.Dotenv.Defined
import EnvAudit.Proofs.Finding.Facts

/-!
# Captured literals

Reports and environment files pass over empty values, so that a literal of one file is shown although
another file has an empty one.  Within one file this is different: of the values recorded for it the
least is kept, which is the empty one if there is one.  A literal is therefore shown exactly if in some
file one was captured and no empty one.
-/

namespace EnvAudit

variable {name file value : String}

namespace Facts

variable {facts : Facts} {all : Finset Suggestion}

/-- The value of a set of suggestions is the least one that is present. -/
theorem leastValue?_eq_some_iff :
    leastValue? all = some value ↔ (∃ s ∈ all, s.value = some value) ∧
      ∀ t ∈ all, ∀ other, t.value = some other → value ≤ other := by
  have hpresent : ∀ other, other ∈ Finset.eraseNone (all.image (·.value)) ↔
      ∃ s ∈ all, s.value = some other := by
    intro other
    rw [Finset.mem_eraseNone, Finset.mem_image]
  constructor
  · intro h
    refine ⟨(hpresent value).1 (Finset.mem_of_min h), fun t ht other hother => ?_⟩
    exact Finset.min_le_of_eq ((hpresent other).2 ⟨t, ht, hother⟩) h
  · rintro ⟨hvalue, hle⟩
    obtain ⟨least, hleast⟩ := Finset.min_of_mem ((hpresent value).2 hvalue)
    obtain ⟨t, ht, hother⟩ := (hpresent least).1 (Finset.mem_of_min hleast)
    have hsame : least = value := le_antisymm
      (Finset.min_le_of_eq ((hpresent value).2 hvalue) hleast) (hle t ht least hother)
    rw [← hsame]
    exact hleast

/-- In some file a literal was recorded for the name that is not empty, and none that is. -/
def KeepsLiteral (facts : Facts) (name : String) : Prop :=
  ∃ s, .suggested name s ∈ facts ∧ (∃ value, s.value = some value ∧ value ≠ "") ∧
    ∀ t, .suggested name t ∈ facts → t.file = s.file → t.value ≠ some ""

theorem mem_suggestionsIn_iff {s : Suggestion} :
    s ∈ facts.suggestionsIn name file ↔ .suggested name s ∈ facts ∧ s.file = file := by
  rw [suggestionsIn, Finset.mem_filter, mem_suggestions_iff]

theorem keepsLiteral_iff :
    facts.KeepsLiteral name ↔
      ∃ file value, leastValue? (facts.suggestionsIn name file) = some value ∧ value ≠ "" := by
  constructor
  · rintro ⟨s, hs, ⟨value, hvalue, hne⟩, hfile⟩
    have hmem : s ∈ facts.suggestionsIn name s.file := mem_suggestionsIn_iff.2 ⟨hs, rfl⟩
    have hpresent : value ∈ Finset.eraseNone
        ((facts.suggestionsIn name s.file).image (·.value)) :=
      Finset.mem_eraseNone.2 (Finset.mem_image.2 ⟨s, hmem, hvalue⟩)
    obtain ⟨least, hleast⟩ := Finset.min_of_mem hpresent
    refine ⟨s.file, least, hleast, ?_⟩
    rintro rfl
    obtain ⟨⟨t, ht, hempty⟩, -⟩ := leastValue?_eq_some_iff.1 hleast
    obtain ⟨htfact, htfile⟩ := mem_suggestionsIn_iff.1 ht
    exact hfile t htfact htfile hempty
  · rintro ⟨file, value, hleast, hne⟩
    obtain ⟨⟨s, hs, hvalue⟩, hle⟩ := leastValue?_eq_some_iff.1 hleast
    obtain ⟨hfact, rfl⟩ := mem_suggestionsIn_iff.1 hs
    refine ⟨s, hfact, ⟨value, hvalue, hne⟩, fun t ht htfile hempty => hne ?_⟩
    have hlower := hle t (mem_suggestionsIn_iff.2 ⟨ht, htfile⟩) "" hempty
    have hupper : "" ≤ value := by
      rw [← not_lt, String.lt_iff_toList_lt]
      exact List.not_lt_nil _
    exact le_antisymm hlower hupper

end Facts

/-- An entry shows a value if one of its suggestions has a value that is not empty. -/
theorem Entry.exists_value?_eq_some_iff {e : Entry} :
    (∃ value, e.value? = some value) ↔
      ∃ s ∈ e.suggested, ∃ value, s.value = some value ∧ value ≠ "" := by
  rw [← Option.isSome_iff_exists, Entry.value?, List.find?_isSome]
  simp only [List.mem_filterMap, bne_iff_ne]
  constructor
  · rintro ⟨value, ⟨s, hs, hvalue⟩, hne⟩
    exact ⟨s, hs, value, hvalue, hne⟩
  · rintro ⟨s, hs, value, hvalue, hne⟩
    exact ⟨value, ⟨s, hs, hvalue⟩, hne⟩

theorem Entry.of_value?_eq_some {e : Entry} (h : e.value? = some value) :
    value ≠ "" ∧ ∃ s ∈ e.suggested, s.value = some value := by
  have hmem := List.mem_of_find?_eq_some h
  have hne := List.find?_some h
  exact ⟨by simpa using hne, by simpa using hmem⟩

namespace Findings

variable {f : Findings} {facts : Facts}

/-- What is suggested for a name in a file is what the facts come to for it. -/
theorem Holds.mem_suggested_iff (h : f.Holds facts) {s : Suggestion} :
    s ∈ (f.get name).suggested ↔ (facts.suggestionsIn name s.file).Nonempty ∧
      s = Facts.summary s.file (facts.suggestionsIn name s.file) := by
  have hfor : (f.get name).suggestionFor? s.file = some s ↔ s ∈ (f.get name).suggested :=
    (Entry.suggestionFor?_eq_some_iff (h.wellFormed.entry name)).trans (and_iff_left rfl)
  rw [← hfor, h.suggestion, Facts.summary?]
  split
  · rename_i hnonempty
    rw [Option.some.injEq, and_iff_right hnonempty, eq_comm]
  · rename_i hempty
    exact iff_of_false (by simp) fun hsuggested => hempty hsuggested.1

/-- A name is shown with a value exactly if the facts keep a literal for it. -/
theorem Holds.exists_value?_iff (h : f.Holds facts) :
    (∃ value, (f.get name).value? = some value) ↔ facts.KeepsLiteral name := by
  rw [Entry.exists_value?_eq_some_iff, Facts.keepsLiteral_iff]
  constructor
  · rintro ⟨s, hs, value, hvalue, hne⟩
    refine ⟨s.file, value, ?_, hne⟩
    rw [(h.mem_suggested_iff.1 hs).2] at hvalue
    exact hvalue
  · rintro ⟨file, value, hleast, hne⟩
    obtain ⟨⟨t, ht, -⟩, -⟩ := Facts.leastValue?_eq_some_iff.1 hleast
    exact ⟨Facts.summary file (facts.suggestionsIn name file),
      h.mem_suggested_iff.2 ⟨⟨t, ht⟩, rfl⟩, value, hleast, hne⟩

/-- The value that is shown was recorded. -/
theorem Holds.exists_suggested_of_value? (h : f.Holds facts)
    (hvalue : (f.get name).value? = some value) :
    ∃ s, .suggested name s ∈ facts ∧ s.value = some value := by
  obtain ⟨-, s, hs, hs'⟩ := Entry.of_value?_eq_some hvalue
  rw [(h.mem_suggested_iff.1 hs).2] at hs'
  obtain ⟨⟨t, ht, hvalue⟩, -⟩ := Facts.leastValue?_eq_some_iff.1 hs'
  exact ⟨t, (Facts.mem_suggestionsIn_iff.1 ht).1, hvalue⟩

end Findings

/-- What is shown for a name fits the facts: it is a recorded literal, and not empty exactly if one is
kept. -/
structure ShowsLiteral (facts : Facts) (name : String) (value : Option String) : Prop where
  shown_iff : (∃ text, value = some text ∧ text ≠ "") ↔ facts.KeepsLiteral name
  recorded : ∀ text, value = some text → ∃ s, .suggested name s ∈ facts ∧ s.value = some text

theorem Findings.Holds.showsLiteral {f : Findings} {facts : Facts} (h : f.Holds facts) (name : String) :
    ShowsLiteral facts name (f.get name).value? where
  shown_iff := by
    rw [← h.exists_value?_iff]
    constructor
    · rintro ⟨text, htext, -⟩
      exact ⟨text, htext⟩
    · rintro ⟨text, htext⟩
      exact ⟨text, htext, (Entry.of_value?_eq_some htext).1⟩
  recorded _ := h.exists_suggested_of_value?

theorem IgnoreTest.exists_report_eq_build {test : IgnoreTest} {f : Findings} {threshold : Severity}
    {report : Report} (h : test.report f threshold = .ok report) :
    ∃ ignored, report = Report.build f ignored threshold := by
  simp only [IgnoreTest.report, bind, Except.bind, pure, Except.pure] at h
  split at h
  · cases h
  · exact ⟨_, (Except.ok.inj h).symm⟩

namespace Recording

variable {fs : FileSystem} {p : Path} {raw : List Char}

/-- Reports and environment files show a literal for a name exactly if one was recorded in some file in
which no empty one was recorded; it is one of those that were recorded.  Without callbacks that fail,
reporting always succeeds, and adding does where the file can be written. -/
theorem shows_kept_literals (r : Recording) (hfs : fs.Sound) (hraw : Dotenv.IsText fs p raw) :
    (∀ callback threshold, ∃ report,
      (IgnoreTest.ofCallback callback).report r.findings threshold = .ok report) ∧
      (∀ test threshold report, IgnoreTest.report test r.findings threshold = .ok report →
        ∀ v ∈ report.suggested, ShowsLiteral r.facts v.name v.value) ∧
      ((∃ place, fs.Writable p place) → ∀ callback, ∃ outcome,
        Dotenv.append fs p r.findings (.ofCallback callback) = .ok outcome) ∧
      ∀ test outcome, Dotenv.append fs p r.findings test = .ok outcome →
        ∃ added, outcome.written = added.map (·.1) ∧
          (∀ item ∈ added, ShowsLiteral r.facts item.1 item.2) ∧
            (outcome.written ≠ [] → outcome.fileSystem.bytes? p =
              some ((fs.bytes? p).getD .empty ++ (Dotenv.addedText added).toUTF8)) := by
  have hholds := r.holds
  have hnodup := hholds.wellFormed.names_nodup
  refine ⟨?_, ?_, ?_, ?_⟩
  · intro callback threshold
    exact ⟨_, Report.report_ofCallback r.findings callback threshold⟩
  · intro test threshold report hreport v hv
    obtain ⟨ignored, rfl⟩ := IgnoreTest.exists_report_eq_build hreport
    rw [Report.suggested_build, List.mem_mergeSort] at hv
    rw [congrArg SuggestedVariable.value (Report.eq_suggestionOf_of_mem hnodup hv)]
    exact hholds.showsLiteral v.name
  · rintro ⟨place, hplace⟩ callback
    exact Dotenv.Call.exists_append_ofCallback hraw hplace ⟨r.findings, callback⟩
  · intro test outcome happend
    have hcontent := Dotenv.content_eq_ok_iff.2 ⟨raw, hraw, rfl⟩
    obtain ⟨ignored, hwritten, -, happended⟩ := Dotenv.exists_ignored_of_append hcontent happend
    refine ⟨_, hwritten, fun item hitem => ?_, fun hne => ?_⟩
    · rw [(Dotenv.of_mem_additions hnodup hitem).2]
      exact hholds.showsLiteral item.1
    · exact (FileSystem.append_eq_ok_iff.1 (happended hne)).bytes?_self hfs

/-- A token with two literals in one file and an empty one in another. -/
def tokenRecording : Recording :=
  ((nothing.addSuggestion "TOKEN" ⟨"b.js", some "", some .low⟩).merge
    (nothing.addSuggestion "TOKEN" ⟨"a.js", some "two", some .high⟩)).addSuggestion
      "TOKEN" ⟨"a.js", some "one", some .high⟩

theorem shows_kept_literals_tokenRecording :
    Dotenv.hostFiles.Sound ∧
      Dotenv.IsText Dotenv.hostFiles ⟨.here, [".env"]⟩ "export HOST=a\r\nPORT=1".toList ∧
        tokenRecording.facts.KeepsLiteral "TOKEN" ∧
          ∃ report outcome, IgnoreTest.nothing.report tokenRecording.findings .low = .ok report ∧
            (∀ v ∈ report.suggested, ShowsLiteral tokenRecording.facts v.name v.value) ∧
              Dotenv.append Dotenv.hostFiles ⟨.here, [".env"]⟩ tokenRecording.findings .nothing =
                .ok outcome := by
  have hkeeps : tokenRecording.facts.KeepsLiteral "TOKEN" := by
    refine ⟨⟨"a.js", some "two", some .high⟩, by decide, ⟨"two", rfl, by decide⟩, ?_⟩
    intro t ht hfile
    have hcases : t = ⟨"a.js", some "one", some .high⟩ ∨ t = ⟨"b.js", some "", some .low⟩ ∨
        t = ⟨"a.js", some "two", some .high⟩ := by
      simpa [tokenRecording, facts] using ht
    rcases hcases with rfl | rfl | rfl
    · decide
    · exact absurd hfile (by decide)
    · decide
  obtain ⟨hreports, hshown, happends, -⟩ :=
    shows_kept_literals tokenRecording Dotenv.sound_hostFiles Dotenv.isText_hostFiles
  obtain ⟨report, hreport⟩ := hreports none .low
  obtain ⟨outcome, happend⟩ :=
    happends (FileSystem.exists_writable_of_bytes? Dotenv.bytes?_hostFiles) none
  rw [IgnoreTest.ofCallback_none] at hreport happend
  exact ⟨Dotenv.sound_hostFiles, Dotenv.isText_hostFiles, hkeeps, report, outcome, hreport,
    hshown _ _ _ hreport, happend⟩

/-- A password that is set in a file, and set empty in the same file. -/
def passwordRecording : Recording :=
  (nothing.addSuggestion "password" ⟨"a.js", some "hunter2", some .high⟩).addSuggestion
    "password" ⟨"a.js", some "", some .high⟩

/-- The password is recorded, but it is shown without a value and added with an empty one. -/
theorem shows_kept_literals_passwordRecording :
    .suggested "password" ⟨"a.js", some "hunter2", some .high⟩ ∈ passwordRecording.facts ∧
      IgnoreTest.nothing.report passwordRecording.findings .low =
        .ok { existing := [], suggested := [⟨"password", .high, ["a.js"], none⟩] } ∧
          ∃ outcome, Dotenv.append Dotenv.bareDirectory ⟨.here, [".env"]⟩ passwordRecording.findings
            .nothing = .ok outcome ∧ outcome.written = ["password"] ∧
              outcome.fileSystem.bytes? ⟨.here, [".env"]⟩ =
                some (Dotenv.header ++ "password=\n").toUTF8 := by
  refine ⟨by decide, by decide +kernel, ?_⟩
  have hwritten : (Dotenv.append Dotenv.bareDirectory ⟨.here, [".env"]⟩ passwordRecording.findings
      .nothing).toOption.map (fun outcome =>
        (outcome.written, outcome.fileSystem.bytes? ⟨.here, [".env"]⟩)) =
        some (["password"], some (Dotenv.header ++ "password=\n").toUTF8) := by
    decide +kernel
  cases happend : Dotenv.append Dotenv.bareDirectory ⟨.here, [".env"]⟩ passwordRecording.findings
      .nothing with
  | error cause => simp [happend, Except.toOption] at hwritten
  | ok outcome =>
      rw [happend] at hwritten
      obtain ⟨hnames, hbytes⟩ := Prod.mk.inj (Option.some.inj hwritten)
      exact ⟨outcome, rfl, hnames, hbytes⟩

end Recording

end EnvAudit
