import EnvAudit.Proofs.Finding.View

/-!
# Findings as sets of facts

Findings are built by naming identifiers, recording uses and suggestions, and merging.  Each of these
steps is a merge with a single fact, and merging unites the facts that two findings hold.  The written
form of findings is therefore a function of the set of facts alone: how often and in which order they
were recorded, and how merges were nested, leaves no trace.
-/

namespace EnvAudit

open Keyed

/-- One thing that can be recorded. -/
inductive Fact
  | named (name : String)
  | used (name file : String)
  | suggested (name : String) (s : Suggestion)
deriving DecidableEq

namespace Fact

/-- The identifier that a fact speaks of. -/
def name : Fact → String
  | named name | used name _ | suggested name _ => name

/-- The files of which a fact says that they use an identifier. -/
def uses (name : String) : Fact → Finset String
  | used other file => if other = name then {file} else ∅
  | _ => ∅

/-- The suggestions that a fact makes for an identifier. -/
def suggestions (name : String) : Fact → Finset Suggestion
  | suggested other s => if other = name then {s} else ∅
  | _ => ∅

/-- What a fact says about its identifier. -/
def entry : Fact → Entry
  | named _ => {}
  | used _ file => { usage := [file] }
  | suggested _ s => { suggested := [s] }

/-- The findings that hold one fact. -/
def findings : Fact → Findings
  | named name => ⟨[(name, {})]⟩
  | used name file => ⟨[(name, { usage := [file] })]⟩
  | suggested name s => ⟨[(name, { suggested := [s] })]⟩

end Fact

/-- A set of facts. -/
abbrev Facts := Finset Fact

namespace Facts

def names (facts : Facts) : Finset String := facts.image Fact.name

def usage (facts : Facts) (name : String) : Finset String := facts.biUnion (Fact.uses name)

def suggestions (facts : Facts) (name : String) : Finset Suggestion :=
  facts.biUnion (Fact.suggestions name)

/-- The files for which an identifier is suggested. -/
def files (facts : Facts) (name : String) : Finset String :=
  (facts.suggestions name).image (·.file)

/-- The suggestions of an identifier for one file. -/
def suggestionsIn (facts : Facts) (name file : String) : Finset Suggestion :=
  (facts.suggestions name).filter (·.file = file)

/-- The least of the values that are present. -/
def leastValue? (all : Finset Suggestion) : Option String :=
  (Finset.eraseNone (all.image (·.value))).min

/-- The highest of the severities that are present. -/
def highestSeverity? (all : Finset Suggestion) : Option Severity :=
  (Finset.eraseNone (all.image (·.severity))).max

/-- What the suggestions for one file come to. -/
def summary (file : String) (all : Finset Suggestion) : Suggestion where
  file := file
  value := leastValue? all
  severity := highestSeverity? all

/-- The written form of a set of facts: the names in order, each with the files that use it in order
and one suggestion per file in the order of files. -/
def digest (facts : Facts) : List (String × Entry) :=
  facts.names.sort.map fun name =>
    (name,
      { usage := (facts.usage name).sort
        suggested := (facts.files name).sort.map fun file =>
          summary file (facts.suggestionsIn name file) })

theorem mem_files_iff {facts : Facts} {name file : String} :
    file ∈ facts.files name ↔ (facts.suggestionsIn name file).Nonempty := by
  simp only [files, suggestionsIn, Finset.mem_image, Finset.Nonempty, Finset.mem_filter]

theorem suggestions_nonempty_iff {facts : Facts} {name : String} :
    (facts.suggestions name).Nonempty ↔ ∃ file, (facts.suggestionsIn name file).Nonempty := by
  simp only [suggestionsIn, Finset.Nonempty, Finset.mem_filter]
  exact ⟨fun ⟨s, hs⟩ => ⟨s.file, s, hs, rfl⟩, fun ⟨_, s, hs, _⟩ => ⟨s, hs⟩⟩

theorem mem_suggestions_iff {facts : Facts} {name : String} {s : Suggestion} :
    s ∈ facts.suggestions name ↔ .suggested name s ∈ facts := by
  rw [suggestions, Finset.mem_biUnion]
  constructor
  · rintro ⟨fact, hfact, hs⟩
    cases fact with
    | named other | used other file => simp [Fact.suggestions] at hs
    | suggested other t =>
        rw [Fact.suggestions] at hs
        split at hs
        · rw [Finset.mem_singleton] at hs
          subst hs
          subst other
          exact hfact
        · simp at hs
  · exact fun h => ⟨_, h, by simp [Fact.suggestions]⟩

theorem mem_usage_iff {facts : Facts} {name file : String} :
    file ∈ facts.usage name ↔ .used name file ∈ facts := by
  rw [usage, Finset.mem_biUnion]
  constructor
  · rintro ⟨fact, hfact, hfile⟩
    cases fact with
    | named other | suggested other s => simp [Fact.uses] at hfile
    | used other path =>
        rw [Fact.uses] at hfile
        split at hfile
        · rw [Finset.mem_singleton] at hfile
          subst hfile
          subst other
          exact hfact
        · simp at hfile
  · exact fun h => ⟨_, h, by simp [Fact.uses]⟩

/-! ## Suggestions of united facts -/

theorem leastValue?_union (all more : Finset Suggestion) :
    leastValue? (all ∪ more) = Suggestion.lesser? (leastValue? all) (leastValue? more) := by
  apply Eq.trans _ (Suggestion.lesser?_eq_inf _ _).symm
  simp only [leastValue?, Finset.image_union, Finset.eraseNone_union, Finset.min_eq_inf_withTop,
    Finset.inf_union]
  rfl

theorem highestSeverity?_union (all more : Finset Suggestion) :
    highestSeverity? (all ∪ more) =
      Severity.higher? (highestSeverity? all) (highestSeverity? more) := by
  apply Eq.trans _ (Severity.higher?_eq_sup _ _).symm
  simp only [highestSeverity?, Finset.image_union, Finset.eraseNone_union,
    Finset.max_eq_sup_withBot, Finset.sup_union]
  rfl

theorem summary_union (file : String) (all more : Finset Suggestion) :
    summary file (all ∪ more) = (summary file all).combine (summary file more) := by
  simp only [summary, Suggestion.combine, leastValue?_union, highestSeverity?_union]

theorem summary_singleton (s : Suggestion) : summary s.file {s} = s := by
  obtain ⟨file, value, severity⟩ := s
  cases value <;> cases severity <;> rfl

/-- What suggestions for one file come to, if there are any. -/
def summary? (file : String) (all : Finset Suggestion) : Option Suggestion :=
  if all.Nonempty then some (summary file all) else none

theorem summary?_union (file : String) (all more : Finset Suggestion) :
    summary? file (all ∪ more) = Suggestion.join? (summary? file all) (summary? file more) := by
  rcases all.eq_empty_or_nonempty with rfl | hall
  · simp [summary?, Suggestion.join?]
  rcases more.eq_empty_or_nonempty with rfl | hmore
  · simp [summary?]
  · rw [summary?, summary?, summary?, if_pos hall, if_pos hmore, if_pos (hall.mono (by simp)),
      summary_union]
    rfl

theorem names_union (a b : Facts) : names (a ∪ b) = names a ∪ names b := Finset.image_union _ _

theorem usage_union (a b : Facts) (name : String) :
    usage (a ∪ b) name = usage a name ∪ usage b name := Finset.union_biUnion

theorem suggestionsIn_union (a b : Facts) (name file : String) :
    suggestionsIn (a ∪ b) name file = suggestionsIn a name file ∪ suggestionsIn b name file := by
  rw [suggestionsIn, suggestions, Finset.union_biUnion, Finset.filter_union]
  rfl

end Facts

namespace Findings

/-- Findings in which exactly the given facts can be seen. -/
structure Holds (f : Findings) (facts : Facts) : Prop where
  wellFormed : f.WellFormed
  mem_names : ∀ name, name ∈ f.names ↔ name ∈ facts.names
  mem_usage : ∀ name file, file ∈ (f.get name).usage ↔ file ∈ facts.usage name
  suggestion : ∀ name file,
    (f.get name).suggestionFor? file = Facts.summary? file (facts.suggestionsIn name file)

theorem holds_empty : Holds empty ∅ where
  wellFormed := wellFormed_empty
  mem_names _ := by simp [names, empty, Facts.names]
  mem_usage _ _ := by simp [get, empty, Facts.usage]
  suggestion _ _ := rfl

theorem get_findings (fact : Fact) (name : String) :
    fact.findings.get name = if fact.name = name then fact.entry else {} := by
  cases fact <;> simp only [Fact.findings, Fact.name, Fact.entry, get, List.find?_cons] <;>
    split <;> simp_all

theorem wellFormed_entry (fact : Fact) : fact.entry.WellFormed := by
  cases fact <;> exact ⟨by simp [Fact.entry], by simp [Fact.entry, Entry.files]⟩

theorem mem_usage_entry_iff (fact : Fact) (file : String) :
    file ∈ fact.entry.usage ↔ file ∈ Fact.uses fact.name fact := by
  cases fact <;> simp [Fact.entry, Fact.uses, Fact.name]

theorem suggestionFor?_entry (fact : Fact) (file : String) :
    fact.entry.suggestionFor? file =
      Facts.summary? file ((Fact.suggestions fact.name fact).filter (·.file = file)) := by
  cases fact with
  | named name | used name other => rfl
  | suggested name s =>
      have hall : Fact.suggestions name (.suggested name s) = {s} := if_pos rfl
      rw [Fact.name, hall, Finset.filter_singleton]
      by_cases hfile : s.file = file
      · subst hfile
        rw [if_pos rfl, Facts.summary?, if_pos (Finset.singleton_nonempty s),
          Facts.summary_singleton]
        simp [Fact.entry, Entry.suggestionFor?]
      · rw [if_neg hfile]
        simp [Fact.entry, Entry.suggestionFor?, Facts.summary?, hfile]

/-- A fact says nothing about other identifiers. -/
theorem Fact.other {fact : Fact} {name : String} (h : fact.name ≠ name) :
    Fact.uses name fact = ∅ ∧ Fact.suggestions name fact = ∅ := by
  cases fact with
  | named other => exact ⟨rfl, rfl⟩
  | used other file => exact ⟨if_neg h, rfl⟩
  | suggested other s => exact ⟨rfl, if_neg h⟩

theorem holds_fact (fact : Fact) : Holds fact.findings {fact} where
  wellFormed := by
    refine ⟨by cases fact <;> simp [Fact.findings, names], fun name => ?_⟩
    rw [get_findings]
    split
    · exact wellFormed_entry fact
    · exact Entry.wellFormed_empty
  mem_names name := by
    cases fact <;> simp [Fact.findings, names, Facts.names, Fact.name]
  mem_usage name file := by
    rw [get_findings, Facts.usage, Finset.singleton_biUnion]
    split
    · subst name
      exact mem_usage_entry_iff fact file
    · rw [(Fact.other ‹_›).1]
      simp
  suggestion name file := by
    rw [get_findings, Facts.suggestionsIn, Facts.suggestions, Finset.singleton_biUnion]
    split
    · subst name
      exact suggestionFor?_entry fact file
    · rw [(Fact.other ‹_›).2]
      rfl

/-- Merging unites the facts. -/
theorem Holds.merge {f other : Findings} {a b : Facts} (hf : f.Holds a) (hother : other.Holds b) :
    (f.merge other).Holds (a ∪ b) where
  wellFormed := hf.wellFormed.merge other
  mem_names name := by
    rw [mem_names_merge, Facts.names_union, Finset.mem_union, hf.mem_names, hother.mem_names]
  mem_usage name file := by
    rw [get_merge hother.wellFormed, Entry.mem_usage_merge, Facts.usage_union, Finset.mem_union,
      hf.mem_usage, hother.mem_usage]
  suggestion name file := by
    rw [get_merge hother.wellFormed, Entry.suggestionFor?_merge (hother.wellFormed.entry name),
      Facts.suggestionsIn_union, Facts.summary?_union, hf.suggestion, hother.suggestion]

theorem Holds.insert {f : Findings} {facts : Facts} (h : f.Holds facts) (fact : Fact) :
    (f.merge fact.findings).Holds (Insert.insert fact facts) := by
  rw [Finset.insert_eq, Finset.union_comm]
  exact h.merge (holds_fact fact)

theorem touch_eq_merge (f : Findings) (name : String) :
    f.touch name = f.merge (Fact.named name).findings := rfl

theorem addUsage_eq_merge (f : Findings) (name file : String) :
    f.addUsage name file = f.merge (Fact.used name file).findings := rfl

theorem addSuggestion_eq_merge (f : Findings) (name : String) (s : Suggestion) :
    f.addSuggestion name s = f.merge (Fact.suggested name s).findings := rfl

/-- A name is suggested exactly if a fact suggests it. -/
theorem Holds.suggested_ne_nil_iff {f : Findings} {facts : Facts} (h : f.Holds facts)
    {name : String} : (f.get name).suggested ≠ [] ↔ ∃ s, .suggested name s ∈ facts := by
  have hsome : ∀ file, file ∈ (f.get name).files ↔
      (facts.suggestionsIn name file).Nonempty := by
    intro file
    rw [Entry.mem_files_iff, h.suggestion, Facts.summary?]
    split <;> simp_all
  constructor
  · intro hne
    obtain ⟨s, hs⟩ := List.exists_mem_of_ne_nil _ hne
    have hfile := (hsome s.file).1 (List.mem_map_of_mem hs)
    obtain ⟨t, ht⟩ := Facts.suggestions_nonempty_iff.2 ⟨s.file, hfile⟩
    exact ⟨t, Facts.mem_suggestions_iff.1 ht⟩
  · rintro ⟨s, hs⟩ hnil
    obtain ⟨file, hfile⟩ :=
      Facts.suggestions_nonempty_iff.1 ⟨s, Facts.mem_suggestions_iff.2 hs⟩
    have hmem := (hsome file).2 hfile
    rw [Entry.files, hnil] at hmem
    cases hmem

/-- The severity that a fact suggests for a name is reached. -/
theorem Holds.exists_severity_le {f : Findings} {facts : Facts} (h : f.Holds facts) {name : String}
    {s : Suggestion} {severity : Severity} (hs : .suggested name s ∈ facts)
    (hseverity : s.severity = some severity) :
    ∃ t ∈ (f.get name).suggested, ∃ higher, t.severity = some higher ∧ severity ≤ higher := by
  have hmem : s ∈ facts.suggestionsIn name s.file :=
    Finset.mem_filter.2 ⟨Facts.mem_suggestions_iff.2 hs, rfl⟩
  have hfor := h.suggestion name s.file
  rw [Facts.summary?, if_pos ⟨s, hmem⟩] at hfor
  have hpresent : severity ∈ Finset.eraseNone
      ((facts.suggestionsIn name s.file).image (·.severity)) :=
    Finset.mem_eraseNone.2 (Finset.mem_image.2 ⟨s, hmem, hseverity⟩)
  obtain ⟨higher, hhigher⟩ := Finset.max_of_mem hpresent
  exact ⟨_, List.mem_of_find?_eq_some hfor, higher, hhigher, Finset.le_max_of_eq hpresent hhigher⟩

/-! ## The written form -/

theorem Holds.sorted_get {f : Findings} {facts : Facts} (h : f.Holds facts) (name : String) :
    (f.get name).sorted =
      { usage := (facts.usage name).sort
        suggested := (facts.files name).sort.map fun file =>
          Facts.summary file (facts.suggestionsIn name file) } := by
  have hwf := h.wellFormed.entry name
  have husage : (f.get name).usage.mergeSort = (facts.usage name).sort :=
    mergeSort_eq_sort hwf.usage_nodup (h.mem_usage name)
  have hfiles : ∀ file, file ∈ (f.get name).files ↔ file ∈ facts.files name := by
    intro file
    rw [Entry.mem_files_iff, h.suggestion, Facts.mem_files_iff, Facts.summary?]
    split <;> simp_all
  have hfind : ∀ s ∈ (f.get name).suggested,
      Facts.summary s.file (facts.suggestionsIn name s.file) = s := by
    intro s hs
    have hfor := (Entry.suggestionFor?_eq_some_iff hwf).2 ⟨hs, rfl⟩
    rw [h.suggestion, Facts.summary?] at hfor
    split at hfor
    · exact Option.some.inj hfor
    · simp at hfor
  have hsuggested : (f.get name).suggested.mergeSort (fun a b => a.file ≤ b.file) =
      (facts.files name).sort.map fun file =>
        Facts.summary file (facts.suggestionsIn name file) :=
    mergeSort_by_key hwf.files_nodup hfind hfiles
  rw [Entry.sorted, husage, hsuggested]

/-- The written form is that of the facts. -/
theorem Holds.sorted_eq_digest {f : Findings} {facts : Facts} (h : f.Holds facts) :
    f.sorted = facts.digest := by
  have hentries : f.sortedEntries = facts.names.sort.map fun name => (name, f.get name) :=
    mergeSort_by_key h.wellFormed.names_nodup
      (fun item hitem => by rw [get_of_mem h.wellFormed.names_nodup hitem]) h.mem_names
  rw [sorted, hentries, List.map_map]
  refine List.map_congr_left fun name _ => ?_
  simp only [Function.comp_apply, h.sorted_get name]

end Findings

/-- A way to build findings. -/
inductive Recording
  | nothing
  | touch (r : Recording) (name : String)
  | addUsage (r : Recording) (name file : String)
  | addSuggestion (r : Recording) (name : String) (s : Suggestion)
  | merge (r other : Recording)

namespace Recording

/-- The findings that are built. -/
def findings : Recording → Findings
  | nothing => .empty
  | touch r name => r.findings.touch name
  | addUsage r name file => r.findings.addUsage name file
  | addSuggestion r name s => r.findings.addSuggestion name s
  | merge r other => r.findings.merge other.findings

/-- The facts that are recorded on the way. -/
def facts : Recording → Facts
  | nothing => ∅
  | touch r name => insert (.named name) r.facts
  | addUsage r name file => insert (.used name file) r.facts
  | addSuggestion r name s => insert (.suggested name s) r.facts
  | merge r other => r.facts ∪ other.facts

/-- Each step keeps the facts so far and adds its own. -/
theorem holds (r : Recording) : r.findings.Holds r.facts := by
  induction r with
  | nothing => exact Findings.holds_empty
  | touch r name ih =>
      rw [findings, Findings.touch_eq_merge]
      exact ih.insert (.named name)
  | addUsage r name file ih =>
      rw [findings, Findings.addUsage_eq_merge]
      exact ih.insert (.used name file)
  | addSuggestion r name s ih =>
      rw [findings, Findings.addSuggestion_eq_merge]
      exact ih.insert (.suggested name s)
  | merge r other ih ihother => exact ih.merge ihother

theorem sorted_eq_of_facts_eq (r other : Recording) (h : r.facts = other.facts) :
    r.findings.sorted = other.findings.sorted := by
  rw [r.holds.sorted_eq_digest, other.holds.sorted_eq_digest, h]

/-- The written form of recorded findings is that of the set of recorded facts; seen through it,
merging is commutative, associative and idempotent. -/
theorem sorted_findings_eq_digest :
    (∀ r : Recording, r.findings.sorted = r.facts.digest) ∧
      (∀ a b : Recording,
        (a.findings.merge b.findings).sorted = (b.findings.merge a.findings).sorted) ∧
      (∀ a b c : Recording,
        ((a.findings.merge b.findings).merge c.findings).sorted =
          (a.findings.merge (b.findings.merge c.findings)).sorted) ∧
      ∀ a : Recording, (a.findings.merge a.findings).sorted = a.findings.sorted := by
  refine ⟨fun r => r.holds.sorted_eq_digest, fun a b => ?_, fun a b c => ?_, fun a => ?_⟩
  · exact sorted_eq_of_facts_eq (a.merge b) (b.merge a) (Finset.union_comm _ _)
  · exact sorted_eq_of_facts_eq ((a.merge b).merge c) (a.merge (b.merge c))
      (Finset.union_assoc _ _ _)
  · exact sorted_eq_of_facts_eq (a.merge a) a (Finset.union_idempotent _)

end Recording

end EnvAudit
