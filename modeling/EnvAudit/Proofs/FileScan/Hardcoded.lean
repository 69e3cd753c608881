import EnvAudit.Proofs.FileScan.Recorded
import EnvAudit.Proofs.Language.Assigned
import EnvAudit.Proofs.Literal
import EnvAudit.Proofs.Report.Selection
import EnvAudit.Proofs.Usage.Silent

/-!
# Hard-coded assignments

The code of a file is one assignment of a quoted literal that reads nothing.  The file then does not use
the name that is assigned, and a report suggests the name if the engine scores it.  A statement with a
dollar sign is an exception, since an expansion of the name looks the same.
-/

namespace EnvAudit

open Pattern

/-- A trimmed text is a single literal only if it begins with a quote. -/
theorem Literal.exists_quote_of_text? {initializer literal : String} {raw : List Char}
    (h : Literal.text? initializer = some literal) (htrim : initializer.toList = Text.trim raw) :
    ∃ quote ∈ Literal.quotes, initializer.toList.head? = some quote := by
  obtain ⟨quote, hquote, htrimmed, -⟩ := text?_eq_some_iff_quoteRuns.1 h
  obtain ⟨left, right, heq, hleft, -⟩ := Text.exists_eq_trim initializer.toList
  refine ⟨quote, hquote, ?_⟩
  -- What is trimmed off in front would stand at the beginning of a trimmed text.
  cases left with
  | nil => rw [heq, htrimmed]; rfl
  | cons c left =>
      have hmem : c ∈ (Text.trim raw).head? := by
        rw [← htrim, heq]
        rfl
      have hhead := Text.isBlank_head_trim c hmem
      rw [hleft c List.mem_cons_self] at hhead
      cases hhead

namespace Usage

/-- An expression of a pipeline holds a dollar sign. -/
theorem pipelineExpression_occursIn_eq_false {content : List Char} (h : '$' ∉ content) :
    pipelineExpression.occursIn content = false := by
  have hstarts : StartsIn (.ofChar '$') pipelineExpression :=
    .seq (.seq (.seq (.seq (.seq (.seq (.seq (.seq (startsIn_one _))))))))
  by_contra hoccurs
  rw [Bool.not_eq_false, occursIn, find?, findFrom?_isSome_iff] at hoccurs
  obtain ⟨front, rest, rfl, hends⟩ := hoccurs
  obtain ⟨r', hr'⟩ := List.exists_mem_of_ne_nil _ hends
  obtain ⟨c, hc, hadmits⟩ := hstarts _ r' hr'
  rw [CharClass.admits_ofChar, beq_iff_eq] at hadmits
  exact h (List.mem_append_right front (hadmits ▸ List.mem_of_head? hc))

theorem Silent.isReference_eq_false {expression : String} (h : Silent expression.toList) :
    isReference expression = false := by
  rw [isReference, Bool.or_eq_false_iff, List.any_eq_false]
  exact ⟨pipelineExpression_occursIn_eq_false h.noDollar, fun p hp => by simp [h.noRead p hp]⟩

end Usage

namespace FileScan

variable {language : Language} {engine : Engine} {file : String} {p : Pattern} {code text : List Char}
  {m : Match} {initializer literal : String} {severity threshold : Severity}

/-- The code is one assignment of a quoted literal that reads nothing, and the match of a candidate
pattern has read all of it. -/
structure Assignment (p : Pattern) (code : List Char) (m : Match) (initializer literal : String) :
    Prop where
  mem : m ∈ p.allMatches code
  before : ∀ c ∈ m.start.before, Text.isBlank c = true
  after : ∀ c ∈ m.reading.cursor.after, Text.isBlank c = true ∨ c = ';'
  value : (Candidate.ofMatch m).initializer = some initializer
  quoted : Literal.text? initializer = some literal
  silent : Usage.Silent initializer.toList

/-- The assigned name cannot be taken for a read: a dollar sign in front of it would not expand it, and
the address of a registry in front of it reads nothing. -/
structure Plain (p : Pattern) (m : Match) : Prop where
  statement : p = Language.statement (Pattern.text "$") →
    Usage.isAllCaps (Candidate.ofMatch m).name.toList = false
  address : p = Language.registryToken → ∀ front back, m.Captures front back →
    '\x7b' ∉ front ∧ Usage.Silent front

theorem Assignment.unread {name : Capture} (h : Assignment p code m initializer literal)
    (hplain : Plain p m) (hname : m.reading.capture? 1 = some name)
    (hstart : Language.Introduces p m.start name.start) :
    Usage.Unread (Candidate.ofMatch m).name.toList name.start.before.reverse := by
  have hnone : ∀ mark ∈ Usage.openings, m.start.before.count mark = 0 := by
    intro mark hmark
    refine List.count_eq_zero.2 fun hmem => ?_
    exact absurd (h.before mark hmem) (by simp [Usage.isBlank_of_mem_openings mark hmark])
  have hspared : ∀ marks ⊆ Usage.openings, Language.Spares marks m.start name.start →
      ∀ mark ∈ marks, mark ∉ name.start.before.reverse := by
    intro marks hmarks hspares mark hmark
    rw [List.mem_reverse]
    exact List.count_eq_zero.1 ((hspares mark hmark).trans (hnone mark (hmarks hmark)))
  rcases hstart with ⟨hp, hcolon⟩ | ⟨hp, hspares⟩ | hspares
  · obtain ⟨hbrace, hsilent⟩ := hplain.address hp _ _ ⟨name, hname, rfl, rfl⟩
    exact .inr (.inr ⟨by rw [List.getLast?_reverse]; exact hcolon, hbrace, hsilent⟩)
  · exact .inr (.inl ⟨hplain.statement hp, hspared _ (List.subset_cons_self _ _) hspares⟩)
  · exact .inl (hspared _ (List.Subset.refl _) hspares)

/-- The code of an assignment is the name, what stands between, the quoted value, and what closes it. -/
theorem Assignment.exists_parts (hlanguage : language ∈ Language.registry)
    (hp : p ∈ language.candidates) (h : Assignment p code m initializer literal) (hplain : Plain p m) :
    (Candidate.ofMatch m).name ≠ "" ∧ ∃ front between back,
      code = front ++ ((Candidate.ofMatch m).name.toList ++ (between ++ (initializer.toList ++ back))) ∧
        Usage.Unread (Candidate.ofMatch m).name.toList front ∧
          (∀ mark ∈ Usage.openings, mark ∉ between) ∧
            (∃ quote ∈ Literal.quotes, initializer.toList.head? = some quote) ∧
              ∀ c ∈ back, Text.isBlank c = true ∨ c = ';' := by
  have hpos := Language.least_pos language hlanguage p hp
  obtain ⟨name, value, hassigns⟩ := Language.assignsValue_of_mem hlanguage hp _ _
    (first_of_mem_allMatches hpos h.mem).mem
  have hwithin := (within_allMatches p code m h.mem).reading
  obtain ⟨hnameStart, hnameStop⟩ :=
    hwithin.captures name (List.mem_of_find?_eq_some hassigns.name?)
  obtain ⟨hvalueStart, hvalueStop⟩ :=
    hwithin.captures value (List.mem_of_find?_eq_some hassigns.value?)
  have hname : (Candidate.ofMatch m).name.toList = name.text := by
    rw [Candidate.ofMatch, String.toList_ofList, Match.group?, hassigns.name?]
    rfl
  have hgroup : m.group? 2 = some value.text := congrArg (Option.map Capture.text) hassigns.value?
  have hvalue : initializer.toList = Text.trim value.text := by
    have hread := h.value
    rw [Candidate.ofMatch, hgroup, Option.map_some, Option.some.injEq] at hread
    rw [← hread, String.toList_ofList]
  have hnamed : name.start.before.reverse ++ name.text = name.stop.before.reverse :=
    hnameStart.reverse_before_append_upTo hnameStop hassigns.name_lt.le
  have hbetween := hnameStop.reverse_before_append_upTo hvalueStart hassigns.apart
  have hvalued : value.start.before.reverse ++ value.text = value.stop.before.reverse :=
    hvalueStart.reverse_before_append_upTo hvalueStop hassigns.value_le
  obtain ⟨left, right, htrim, hleft, hright⟩ := Text.exists_eq_trim value.text
  obtain ⟨last, hlast, hsemicolons⟩ := hassigns.after
  refine ⟨fun hempty => ?_, name.start.before.reverse, name.stop.upTo value.start ++ left,
    right ++ value.stop.after, ?_, h.unread hplain hassigns.name? hassigns.start, ?_,
    Literal.exists_quote_of_text? h.quoted hvalue, ?_⟩
  · rw [hempty] at hname
    have hlt := hassigns.name_lt
    rw [← hname, String.toList_empty, List.append_nil, List.reverse_inj] at hnamed
    rw [hnameStart.index, hnameStop.index, hnamed] at hlt
    exact lt_irrefl _ hlt
  · calc
      code = (value.start.before.reverse ++ value.text) ++ value.stop.after := by
        rw [hvalued, hvalueStop.chars]
      _ = (((name.start.before.reverse ++ name.text) ++ name.stop.upTo value.start) ++ value.text) ++
          value.stop.after := by rw [hnamed, hbetween]
      _ = _ := by
        rw [hname, hvalue]
        nth_rewrite 1 [htrim]
        simp only [List.append_assoc]
  · intro mark hmark hmem
    rcases List.mem_append.1 hmem with hmem | hmem
    · have hcount := hassigns.between mark hmark
      rw [← List.count_reverse, ← hbetween, List.count_append, List.count_reverse] at hcount
      exact List.count_eq_zero.1 (Nat.add_eq_left.1 hcount) hmem
    · exact absurd (hleft mark hmem) (by simp [Usage.isBlank_of_mem_openings mark hmark])
  · intro c hc
    rw [hlast, List.mem_append, List.mem_append] at hc
    rcases hc with hc | hc | hc
    · exact .inl (hright c hc)
    · exact .inr (hsemicolons c hc)
    · exact h.after c hc

/-- The suggestion that a scored literal comes to. -/
theorem mem_textFacts_of_assignment (file : String) (hp : p ∈ language.candidates)
    (h : Assignment p (Source.code text language.comments language.markup) m initializer literal)
    (hname : (Candidate.ofMatch m).name ≠ "")
    (hscore : engine.score (Candidate.ofMatch m).name (some literal) = some severity) :
    .suggested (Candidate.ofMatch m).name
      { file, value := some literal, severity := some severity } ∈
        textFacts engine language file text := by
  have hreexport : isReexport (Candidate.ofMatch m) = false := by
    rw [isReexport, h.value]
    exact h.silent.isReference_eq_false
  have hscored : Candidate.ofMatch m ∈
      scored language (Source.code text language.comments language.markup) := by
    refine List.mem_filter.2 ⟨List.mem_flatten.2 ⟨_, List.mem_map_of_mem hp, ?_⟩, ?_⟩
    · exact List.mem_map_of_mem h.mem
    · simp [hname, hreexport]
  refine Finset.mem_union_right _ (Finset.mem_biUnion.2
    ⟨Candidate.ofMatch m, List.mem_toFinset.2 hscored, ?_⟩)
  have hliteral : (Candidate.ofMatch m).initializer.bind Literal.text? = some literal := by
    rw [h.value]
    exact h.quoted
  simp only [candidateFacts, hliteral, hscore, Finset.mem_singleton]

/-- A name that is assigned a quoted literal is not used by the file.  If the engine scores it, a report
suggests it and does not count it among the existing variables. -/
theorem assigned_suggested (hlanguage : language ∈ Language.registry) (hp : p ∈ language.candidates)
    (h : Assignment p (Source.code text language.comments language.markup) m initializer literal)
    (hplain : Plain p m) (engine : Engine) (file : String) :
    let name := (Candidate.ofMatch m).name
    let found := (scanText engine language file text).value
    (found.get name).usage = [] ∧
      ∀ severity, engine.score name (some literal) = some severity → ∀ threshold ≤ severity,
        ∃ report, IgnoreTest.nothing.report found threshold = .ok report ∧
          name ∈ report.suggested.map (·.name) ∧ name ∉ report.existing.map (·.name) := by
  intro name found
  obtain ⟨hname, front, between, back, hcode, hfront, hbetween, hquote, hback⟩ :=
    h.exists_parts hlanguage hp hplain
  have hunused : (found.get name).usage = [] := by
    by_contra hused
    have hread := usage_ne_nil_iff.1 hused
    rw [hcode] at hread
    exact Usage.notMem_namesIn hfront hbetween hquote h.silent hback hread
  refine ⟨hunused, fun severity hscore threshold hle => ?_⟩
  have hfound := holds_scanText engine language file text
  have hfact := mem_textFacts_of_assignment file hp h hname hscore
  obtain ⟨s, hs, higher, hseverity, hhigher⟩ := hfound.exists_severity_le hfact rfl
  have hsuggested : (found.get name).suggested ≠ [] := List.ne_nil_of_mem hs
  have hgreatest := Entry.isGreatest_maxSeverity? hsuggested
  have hexact := Report.exact_build hfound.wellFormed.names_nodup none threshold
  refine ⟨_, Report.report_ofCallback found none threshold, (hexact.mem_suggested name).2 ?_, ?_⟩
  · refine ⟨hunused, hsuggested, nofun, _, hgreatest, ?_⟩
    exact hle.trans (hhigher.trans (hgreatest.2 ⟨s, hs, by rw [hseverity]; rfl⟩))
  · rw [hexact.mem_existing, not_not]
    exact hunused

theorem assigned_suggested_password :
    ∃ language ∈ Language.registry, ∃ p ∈ language.candidates, ∃ m,
      Assignment p (Source.code "const password = \"hunter2\";".toList language.comments
          language.markup) m "\"hunter2\"" "hunter2" ∧
        Plain p m ∧ (Candidate.ofMatch m).name = "password" ∧
          ((scanText .builtIn language "a.js" "const password = \"hunter2\";".toList).value.get
            "password").usage = [] ∧
          ∃ report, IgnoreTest.nothing.report (scanText .builtIn language "a.js"
              "const password = \"hunter2\";".toList).value .critical = .ok report ∧
            "password" ∈ report.suggested.map (·.name) ∧
              "password" ∉ report.existing.map (·.name) := by
  let language : Language := { name := "js", candidates := [Language.declaration] }
  have hlanguage : language ∈ Language.registry := by simp [language, Language.registry]
  have hp : Language.declaration ∈ language.candidates := List.mem_singleton_self _
  have hmatch : (Language.declaration.allMatches (Source.code
      "const password = \"hunter2\";".toList language.comments language.markup)).any (fun m =>
        (Candidate.ofMatch m).initializer == some "\"hunter2\"" &&
          (Candidate.ofMatch m).name == "password" && m.start.before.isEmpty &&
            m.reading.cursor.after == [';']) = true := by decide +kernel
  obtain ⟨m, hm, hread⟩ := List.any_eq_true.1 hmatch
  simp only [Bool.and_eq_true, beq_iff_eq, List.isEmpty_iff] at hread
  obtain ⟨⟨⟨hvalue, hname⟩, hbefore⟩, hafter⟩ := hread
  have hsilent : Usage.Silent "\"hunter2\"".toList :=
    ⟨by decide +kernel, by decide +kernel, by decide +kernel⟩
  have hassigned : Assignment Language.declaration (Source.code
      "const password = \"hunter2\";".toList language.comments language.markup) m
        "\"hunter2\"" "hunter2" :=
    { mem := hm
      before := by simp [hbefore]
      after := by simp [hafter]
      value := hvalue
      quoted := by decide +kernel
      silent := hsilent }
  have hplain : Plain Language.declaration m :=
    ⟨by rintro ⟨⟩, by rintro ⟨⟩⟩
  have hscore : Engine.builtIn.score (Candidate.ofMatch m).name (some "hunter2") = some .critical := by
    rw [hname]
    decide +kernel
  obtain ⟨hunused, hreport⟩ :=
    assigned_suggested hlanguage hp hassigned hplain .builtIn "a.js"
  obtain ⟨report, heq, hsuggested, hexisting⟩ := hreport .critical hscore .critical le_rfl
  rw [hname] at hunused hsuggested hexisting
  exact ⟨language, hlanguage, _, hp, m, hassigned, hplain, hname, hunused, report, heq, hsuggested,
    hexisting⟩

/-- A statement with a dollar sign assigns a secret to a name of capitals, and the name counts as an
existing variable. -/
theorem apiKey_existing :
    ∃ language ∈ Language.registry, language.name = "php" ∧ ∃ p ∈ language.candidates, ∃ m,
      Assignment p (Source.code "$API_KEY = 'hunter2';".toList language.comments language.markup) m
          "'hunter2'" "hunter2" ∧
        (Candidate.ofMatch m).name = "API_KEY" ∧
          Engine.builtIn.score "API_KEY" (some "hunter2") = some .high ∧
            ((scanText .builtIn language "index.php" "$API_KEY = 'hunter2';".toList).value.get
              "API_KEY").usage = ["index.php"] ∧
            ∃ report, IgnoreTest.nothing.report (scanText .builtIn language "index.php"
                "$API_KEY = 'hunter2';".toList).value .low = .ok report ∧
              "API_KEY" ∉ report.suggested.map (·.name) ∧
                "API_KEY" ∈ report.existing.map (·.name) := by
  let language : Language :=
    { name := "php", candidates := [Language.statement (Pattern.text "$")] }
  have hlanguage : language ∈ Language.registry := by simp [language, Language.registry]
  have hmatch : ((Language.statement (Pattern.text "$")).allMatches (Source.code
      "$API_KEY = 'hunter2';".toList language.comments language.markup)).any (fun m =>
        (Candidate.ofMatch m).initializer == some "'hunter2'" &&
          (Candidate.ofMatch m).name == "API_KEY" && m.start.before.isEmpty &&
            m.reading.cursor.after.isEmpty) = true := by decide +kernel
  obtain ⟨m, hm, hread⟩ := List.any_eq_true.1 hmatch
  simp only [Bool.and_eq_true, beq_iff_eq, List.isEmpty_iff] at hread
  obtain ⟨⟨⟨hvalue, hname⟩, hbefore⟩, hafter⟩ := hread
  have hsilent : Usage.Silent "'hunter2'".toList :=
    ⟨by decide +kernel, by decide +kernel, by decide +kernel⟩
  have hused : ((scanText .builtIn language "index.php" "$API_KEY = 'hunter2';".toList).value.get
      "API_KEY").usage = ["index.php"] := by decide +kernel
  have hne : ((scanText .builtIn language "index.php" "$API_KEY = 'hunter2';".toList).value.get
      "API_KEY").usage ≠ [] := by
    rw [hused]
    exact List.cons_ne_nil _ _
  have hfound := holds_scanText .builtIn language "index.php" "$API_KEY = 'hunter2';".toList
  have hexact := Report.exact_build hfound.wellFormed.names_nodup none .low
  refine ⟨language, hlanguage, rfl, _, List.mem_singleton_self _, m,
    { mem := hm
      before := by simp [hbefore]
      after := by simp [hafter]
      value := hvalue
      quoted := by decide +kernel
      silent := hsilent }, hname, by decide +kernel, hused, _, Report.report_ofCallback _ none .low,
    fun hmem => hne ((hexact.mem_suggested "API_KEY").1 hmem).unused,
    (hexact.mem_existing "API_KEY").2 hne⟩

end FileScan

end EnvAudit
