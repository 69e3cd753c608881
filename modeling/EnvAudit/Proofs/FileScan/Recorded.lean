import EnvAudit.Proofs.FileScan.Suggests
import EnvAudit.Proofs.Language.Named
import EnvAudit.Proofs.Usage.Named

/-!
# Recorded names are whole words

A file is recorded to use or suggest a name.  The name stands in the code where a match has captured it,
and as a rule it is a whole word there.  The exceptions are listed: small letters can follow the name of
an expansion, and four kinds of candidates can cut off the beginning of a word.
-/

namespace EnvAudit.FileScan

open Pattern

variable {language : Language} {engine : Engine} {file name : String} {text : List Char}

/-- The name of every scored candidate ends where a word ends, and it begins where a word begins or is
cut off in one of the known ways. -/
theorem exists_captures_of_mem_scored {code : List Char} {c : Candidate}
    (hlanguage : language ∈ Language.registry) (h : c ∈ scored language code) :
    ∃ p ∈ language.candidates, ∃ m ∈ p.allMatches code, ∃ front back,
      code = front ++ (c.name.toList ++ back) ∧ m.Captures front back ∧ Text.WholeBack back ∧
        (Text.WholeFront front ∨ Language.CutsFront code p front) := by
  obtain ⟨found, hfound, hc⟩ := List.mem_flatten.1 (List.mem_filter.1 h).1
  obtain ⟨p, hp, rfl⟩ := List.mem_map.1 hfound
  obtain ⟨m, hm, rfl⟩ := List.mem_map.1 hc
  obtain ⟨capture, hname⟩ := Language.namesWhole_of_mem hlanguage hp code m hm
  have hread : (Candidate.ofMatch m).name.toList = capture.text := by
    rw [Candidate.ofMatch, String.toList_ofList, Match.group?, hname.capture?]
    rfl
  rw [hread]
  exact ⟨p, hp, m, hm, _, _,
    (within_allMatches p code m hm).reading.eq_append hname.capture? hname.le,
    ⟨capture, hname.capture?, rfl, rfl⟩, hname.stop.wholeBack, hname.start⟩

theorem used_mem_textFacts_iff {path : String} :
    .used name path ∈ textFacts engine language file text ↔
      path = file ∧ name ∈ Usage.namesIn (Source.code text language.comments language.markup) := by
  rw [textFacts, Finset.mem_union, Finset.mem_biUnion, Finset.mem_biUnion]
  constructor
  · rintro (⟨used, hused, h⟩ | ⟨c, -, h⟩)
    · obtain ⟨rfl, rfl⟩ := Fact.used.inj (Finset.mem_singleton.1 h)
      exact ⟨rfl, List.mem_toFinset.1 hused⟩
    · rw [candidateFacts] at h
      split at h <;> simp at h
  · rintro ⟨rfl, hname⟩
    exact .inl ⟨name, List.mem_toFinset.2 hname, Finset.mem_singleton_self _⟩

/-- A file uses exactly the names that its code reads from the environment. -/
theorem usage_ne_nil_iff :
    ((scanText engine language file text).value.get name).usage ≠ [] ↔
      name ∈ Usage.namesIn (Source.code text language.comments language.markup) := by
  have hmem : ∀ path, path ∈ ((scanText engine language file text).value.get name).usage ↔
      path = file ∧ name ∈ Usage.namesIn (Source.code text language.comments language.markup) := by
    intro path
    rw [(holds_scanText engine language file text).mem_usage, Facts.mem_usage_iff,
      used_mem_textFacts_iff]
  constructor
  · intro h
    obtain ⟨path, hpath⟩ := List.exists_mem_of_ne_nil _ h
    exact ((hmem path).1 hpath).2
  · exact fun h => List.ne_nil_of_mem ((hmem file).2 ⟨rfl, h⟩)

/-- Nothing is recorded for a name but that the file uses or suggests it. -/
theorem usage_or_suggested_of_mem_names
    (h : name ∈ (scanText engine language file text).value.names) :
    ((scanText engine language file text).value.get name).usage ≠ [] ∨
      ((scanText engine language file text).value.get name).suggested ≠ [] := by
  have hfound := holds_scanText engine language file text
  rw [hfound.mem_names, Facts.names, Finset.mem_image] at h
  obtain ⟨fact, hfact, rfl⟩ := h
  cases fact with
  | named other =>
      rw [textFacts, Finset.mem_union, Finset.mem_biUnion, Finset.mem_biUnion] at hfact
      rcases hfact with ⟨used, -, h⟩ | ⟨c, -, h⟩
      · simp at h
      · rw [candidateFacts] at h
        split at h <;> simp at h
  | used other path => exact .inl (usage_ne_nil_iff.2 (used_mem_textFacts_iff.1 hfact).2)
  | suggested other s => exact .inr (hfound.suggested_ne_nil_iff.2 ⟨s, hfact⟩)

/-- Every name that is recorded for a file is used or suggested by it.  A used name is read in the code
by a whole word, up to small letters behind an expansion.  A suggested name is given by a candidate as a
whole word, up to the known ways to cut off its beginning. -/
theorem recorded_whole (hlanguage : language ∈ Language.registry) (engine : Engine)
    (file name : String) (text : List Char) :
    let code := Source.code text language.comments language.markup
    let found := (scanText engine language file text).value
    (name ∈ found.names → (found.get name).usage ≠ [] ∨ (found.get name).suggested ≠ []) ∧
      ((found.get name).usage ≠ [] → ∃ front back, code = front ++ (name.toList ++ back) ∧
        Usage.ReadAt code front name.toList back ∧ Text.WholeFront front ∧
          (Text.WholeBack back ∨ Usage.CutsBack code front back)) ∧
      ((found.get name).suggested ≠ [] → ∃ p ∈ language.candidates, ∃ m ∈ p.allMatches code,
        ∃ front back, code = front ++ (name.toList ++ back) ∧ m.Captures front back ∧
          Text.WholeBack back ∧ (Text.WholeFront front ∨ Language.CutsFront code p front)) := by
  intro code found
  have hfound : found.Holds (textFacts engine language file text) :=
    holds_scanText engine language file text
  refine ⟨usage_or_suggested_of_mem_names, fun hused => ?_, fun hsuggested => ?_⟩
  · exact Usage.exists_readAt_of_mem_namesIn (usage_ne_nil_iff.1 hused)
  · obtain ⟨s, hs⟩ := hfound.suggested_ne_nil_iff.1 hsuggested
    obtain ⟨c, hc, rfl⟩ := mem_textFacts_suggested hs
    exact exists_captures_of_mem_scored hlanguage hc

theorem recorded_whole_apiKey :
    ∃ language ∈ Language.registry, language.name = "env" ∧
      ((scanText .builtIn language ".env" "API_KEY=hunter2\n".toList).value.get
        "API_KEY").suggested ≠ [] ∧
      ∃ p ∈ language.candidates, ∃ m ∈ p.allMatches (Source.code "API_KEY=hunter2\n".toList
          language.comments language.markup),
        ∃ front back, Source.code "API_KEY=hunter2\n".toList language.comments language.markup =
            front ++ ("API_KEY".toList ++ back) ∧ m.Captures front back ∧ Text.WholeBack back ∧
          (Text.WholeFront front ∨ Language.CutsFront
            (Source.code "API_KEY=hunter2\n".toList language.comments language.markup) p front) := by
  let language : Language := { name := "env", candidates := [Language.shellAssignment] }
  have hlanguage : language ∈ Language.registry := by simp [language, Language.registry]
  have hsuggested : ((scanText .builtIn language ".env" "API_KEY=hunter2\n".toList).value.get
      "API_KEY").suggested ≠ [] := by decide +kernel
  exact ⟨language, hlanguage, rfl, hsuggested,
    (recorded_whole hlanguage .builtIn ".env" "API_KEY" _).2.2 hsuggested⟩

/-- The capitals at the end of a name are recorded as a name of their own, which is nowhere a word. -/
theorem url_not_whole :
    ∃ language ∈ Language.registry, language.name = "env" ∧
      "URL" ∈ (scanText .builtIn language "prod.env"
        "dbURL=https://api.example.com\n".toList).value.names ∧
      ∀ front back, Source.code "dbURL=https://api.example.com\n".toList language.comments
          language.markup = front ++ ("URL".toList ++ back) → ¬ Text.WholeFront front := by
  let language : Language := { name := "env", candidates := [Language.shellAssignment] }
  have hlanguage : language ∈ Language.registry := by simp [language, Language.registry]
  have hcode : Source.code "dbURL=https://api.example.com\n".toList language.comments
      language.markup = "dbURL=https://api.example.com\n".toList := by decide +kernel
  have hname : "URL" ∈ (scanText .builtIn language "prod.env"
      "dbURL=https://api.example.com\n".toList).value.names := by decide +kernel
  have hplace : ∀ index < 31, "URL".toList <+:
      ("dbURL=https://api.example.com\n".toList.drop index) →
        ("dbURL=https://api.example.com\n".toList.take index).getLast? = some 'b' := by
    decide +kernel
  refine ⟨language, hlanguage, rfl, hname, fun front back heq hwhole => ?_⟩
  rw [hcode] at heq
  have hlength : front.length < 31 := by
    have hsum := congrArg List.length heq
    simp only [List.length_append] at hsum
    have htotal : "dbURL=https://api.example.com\n".toList.length = 30 := by decide +kernel
    omega
  have hlast := hplace front.length hlength (by rw [heq, List.drop_left]; exact List.prefix_append _ _)
  rw [heq, List.take_left] at hlast
  exact absurd (hwhole 'b' hlast) (by decide)

end EnvAudit.FileScan
