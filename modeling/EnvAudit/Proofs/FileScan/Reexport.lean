import EnvAudit.Proofs.FileScan.Facts
import EnvAudit.Proofs.Language.Bounded
import EnvAudit.Proofs.Pattern.Within
import EnvAudit.Proofs.Usage.Accessors

/-!
# Values that are handed on

A candidate whose initial value reads the environment is no suggestion.  Nothing is lost with it: the
variable that is read counts as used by the file, since the value is a piece of the code that no word
sticks out of.  The one exception is a property whose value is taken from the middle of a word.
-/

namespace EnvAudit

/-- Marks that are left off in front of a piece do not bring a word to the cut. -/
theorem cutsWord_append_left {front gap inner rest : List Char}
    (h : cutsWord front (gap ++ (inner ++ rest)) = false)
    (hgap : ∀ c ∈ gap, Text.isWord c = false) : cutsWord (front ++ gap) inner = false := by
  rw [cutsWord_eq_false_iff] at h ⊢
  intro last hlast hword next hnext
  rcases List.eq_nil_or_concat' gap with rfl | ⟨more, mark, rfl⟩
  · rw [List.append_nil] at hlast
    refine h last hlast hword next ?_
    rw [List.nil_append, List.head?_append, Option.mem_def.1 hnext]
    rfl
  · have hmark : last = mark := by simpa using hlast.symm
    rw [hmark, hgap mark (by simp)] at hword
    cases hword

theorem cutsWord_append_right {front inner gap rest : List Char}
    (h : cutsWord (front ++ (inner ++ gap)) rest = false)
    (hgap : ∀ c ∈ gap, Text.isWord c = false) : cutsWord inner (gap ++ rest) = false := by
  rw [cutsWord_eq_false_iff] at h ⊢
  intro last hlast hword next hnext
  cases gap with
  | nil =>
      rw [List.append_nil] at h
      exact h last (mem_getLast?_append hlast) hword next hnext
  | cons mark gap =>
      have hmark : next = mark := Option.some.inj hnext.symm
      exact hmark ▸ hgap mark List.mem_cons_self

namespace FileScan

open Pattern

variable {language : Language} {pattern p : Pattern} {code : List Char} {m : Match}
  {initializer : String} {found : Match}

/-- The initial value of a candidate is a piece of the code, and no word sticks out of it. -/
theorem exists_code_eq_append (hlanguage : language ∈ Language.registry)
    (hpattern : pattern ∈ language.candidates) (hm : m ∈ pattern.allMatches code)
    (hvalue : (Candidate.ofMatch m).initializer = some initializer)
    (hproperty : pattern = Language.property → m.reading.cursor.insideWord = false) :
    ∃ front back, code = front ++ (initializer.toList ++ back) ∧
      cutsWord front initializer.toList = false ∧ cutsWord initializer.toList back = false := by
  obtain ⟨capture, c, hread, hwhole⟩ :=
    Language.exists_wholeValue hlanguage hpattern hm hproperty
  have hgroup : m.group? 2 = some capture.text := congrArg (Option.map Capture.text) hread.capture?
  have hvalue : initializer.toList = Text.trim capture.text := by
    rw [Candidate.ofMatch, hgroup, Option.map_some, Option.some.injEq] at hvalue
    rw [← hvalue, String.toList_ofList]
  obtain ⟨hstart, hstop⟩ := (within_allMatches pattern code m hm).reading.captures capture
    (List.mem_of_find?_eq_some hread.capture?)
  have hpassed : capture.start.before.reverse ++ capture.text = c.before.reverse := by
    rw [Capture.text, hstart.reverse_before_append_upTo hstop (hread.stop ▸ hread.le), hread.stop]
  have hcode : capture.start.before.reverse ++ (capture.text ++ c.after) = code := by
    rw [← List.append_assoc, hpassed, ← hread.stop]
    exact hstop.chars
  obtain ⟨front, back, htext, hfront, hback⟩ := Text.exists_eq_trim capture.text
  refine ⟨capture.start.before.reverse ++ front, back ++ c.after, ?_, ?_, ?_⟩
  · rw [← hcode, hvalue]
    nth_rewrite 1 [htext]
    simp only [List.append_assoc]
  · have hcut : cutsWord capture.start.before.reverse (front ++ (initializer.toList ++ back)) =
        false := by
      refine cutsWord_eq_false_iff.2 fun last hlast hword => ?_
      rw [List.getLast?_reverse] at hlast
      rw [hread.start last hlast] at hword
      cases hword
    exact cutsWord_append_left hcut fun ch hch => Text.isWord_of_isBlank (hfront ch hch)
  · have hcut : cutsWord ((capture.start.before.reverse ++ front) ++ (initializer.toList ++ back))
        c.after = false := by
      rw [hvalue, List.append_assoc, ← htext, hpassed]
      exact hwhole
    exact cutsWord_append_right hcut fun ch hch => Text.isWord_of_isBlank (hback ch hch)

/-- A variable that the code reads counts as used by the file. -/
theorem mem_usage_of_mem_namesIn {engine : Engine} {file name : String} {text : List Char}
    (h : name ∈ Usage.namesIn (Source.code text language.comments language.markup)) :
    file ∈ ((scanText engine language file text).value.get name).usage := by
  rw [(holds_scanText engine language file text).mem_usage]
  refine Finset.mem_biUnion.2 ⟨.used name file, ?_, by simp [Fact.uses]⟩
  exact Finset.mem_union_left _ (Finset.mem_biUnion.2
    ⟨name, List.mem_toFinset.2 h, Finset.mem_singleton_self _⟩)

/-- Where a pattern of environment reads finds a variable in the initial value of a candidate, the
file uses this variable, unless a property ends in the middle of a word. -/
theorem mem_usage_of_reexport {engine : Engine} {file : String} {text : List Char}
    (hlanguage : language ∈ Language.registry) (hpattern : pattern ∈ language.candidates)
    (hm : m ∈ pattern.allMatches (Source.code text language.comments language.markup))
    (hvalue : (Candidate.ofMatch m).initializer = some initializer) (hp : p ∈ Usage.patterns)
    (hfound : p.find? initializer.toList = some found)
    (hproperty : pattern = Language.property → m.reading.cursor.insideWord = false) :
    file ∈ ((scanText engine language file text).value.get
      (String.ofList ((found.group? 1).getD []))).usage := by
  obtain ⟨front, back, hcode, hfront, hback⟩ :=
    exists_code_eq_append hlanguage hpattern hm hvalue hproperty
  refine mem_usage_of_mem_namesIn ?_
  rw [hcode]
  exact Usage.mem_namesIn_of_find? hp hfront hback hfound

theorem mem_usage_of_reexport_propertyKey :
    ∃ language ∈ Language.registry, Language.property ∈ language.candidates ∧
      ∃ m ∈ Language.property.allMatches (Source.code "key: process.env.VUE_APP_KEY,".toList
          language.comments language.markup),
        (Candidate.ofMatch m).initializer = some "process.env.VUE_APP_KEY" ∧
          m.reading.cursor.insideWord = false ∧
            ∃ p ∈ Usage.patterns, ∃ found,
              p.find? "process.env.VUE_APP_KEY".toList = some found ∧
                found.group? 1 = some "VUE_APP_KEY".toList ∧
                  "App.vue" ∈ ((scanText .builtIn language "App.vue"
                    "key: process.env.VUE_APP_KEY,".toList).value.get "VUE_APP_KEY").usage := by
  let language : Language :=
    { name := "vue", candidates := [Language.declaration, Language.property], markup := true }
  have hlanguage : language ∈ Language.registry := by simp [language, Language.registry]
  have hpattern : Language.property ∈ language.candidates := by simp [language]
  have hmatch : (Language.property.allMatches (Source.code "key: process.env.VUE_APP_KEY,".toList
      language.comments language.markup)).any (fun m =>
        (Candidate.ofMatch m).initializer == some "process.env.VUE_APP_KEY" &&
          !m.reading.cursor.insideWord) = true := by decide
  have hread : ((text "process.env." ++ Usage.variableName ++ Usage.wordEdge).find?
      "process.env.VUE_APP_KEY".toList).any (fun found =>
        found.group? 1 == some "VUE_APP_KEY".toList) = true := by decide
  obtain ⟨m, hm, hvalue⟩ := List.any_eq_true.1 hmatch
  obtain ⟨found, hfound, hname⟩ := (Option.any_eq_true _ _).1 hread
  rw [Bool.and_eq_true, beq_iff_eq, Bool.not_eq_true'] at hvalue
  rw [beq_iff_eq] at hname
  have hp : text "process.env." ++ Usage.variableName ++ Usage.wordEdge ∈ Usage.patterns :=
    List.mem_cons_self
  have husage : "App.vue" ∈ ((scanText .builtIn language "App.vue"
      "key: process.env.VUE_APP_KEY,".toList).value.get
        (String.ofList ((found.group? 1).getD []))).usage :=
    mem_usage_of_reexport hlanguage hpattern hm hvalue.1 hp hfound fun _ => hvalue.2
  rw [hname, Option.getD_some, String.ofList_toList] at husage
  exact ⟨language, hlanguage, hpattern, m, hm, hvalue.1, hvalue.2, _, hp, found, hfound, hname, husage⟩

/-- A property is handed on whose variable is not used, as its name ends in the middle of a word. -/
theorem notMem_usage_of_property :
    ∃ language ∈ Language.registry, Language.property ∈ language.candidates ∧
      ∃ m ∈ Language.property.allMatches (Source.code "apiKey: process.env.VUE_APP_apiKey\n".toList
          language.comments language.markup),
        (Candidate.ofMatch m).initializer = some "process.env.VUE_APP_" ∧
          isReexport (Candidate.ofMatch m) = true ∧
            ∃ p ∈ Usage.patterns, ∃ found, p.find? "process.env.VUE_APP_".toList = some found ∧
              found.group? 1 = some "VUE_APP_".toList ∧
                "App.vue" ∉ ((scanText .builtIn language "App.vue"
                  "apiKey: process.env.VUE_APP_apiKey\n".toList).value.get "VUE_APP_").usage := by
  let language : Language :=
    { name := "vue", candidates := [Language.declaration, Language.property], markup := true }
  have hlanguage : language ∈ Language.registry := by simp [language, Language.registry]
  have hpattern : Language.property ∈ language.candidates := by simp [language]
  have hmatch : (Language.property.allMatches
      (Source.code "apiKey: process.env.VUE_APP_apiKey\n".toList
        language.comments language.markup)).any (fun m =>
          (Candidate.ofMatch m).initializer == some "process.env.VUE_APP_" &&
            isReexport (Candidate.ofMatch m)) = true := by decide
  have hread : ((text "process.env." ++ Usage.variableName ++ Usage.wordEdge).find?
      "process.env.VUE_APP_".toList).any (fun found =>
        found.group? 1 == some "VUE_APP_".toList) = true := by decide
  obtain ⟨m, hm, hvalue⟩ := List.any_eq_true.1 hmatch
  obtain ⟨found, hfound, hname⟩ := (Option.any_eq_true _ _).1 hread
  rw [Bool.and_eq_true, beq_iff_eq] at hvalue
  rw [beq_iff_eq] at hname
  refine ⟨language, hlanguage, hpattern, m, hm, hvalue.1, hvalue.2, _, List.mem_cons_self, found,
    hfound, hname, ?_⟩
  decide +kernel

end FileScan

end EnvAudit
