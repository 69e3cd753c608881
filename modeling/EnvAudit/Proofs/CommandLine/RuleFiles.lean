import EnvAudit.Proofs.CommandLine.Prepare
import EnvAudit.Proofs.Engine

/-!
# Rule files and scores

A scan scores by the set of rules that its rule files come to.  It does not matter who names a file, how
often and in what place, nor under which path its text is found.
-/

namespace EnvAudit

open Severity (level)

namespace RuleFile

variable {fs : FileSystem} {file other : Path} {files others : List Path}

/-- Two paths of one text, or twice the same path. -/
def SameText (fs : FileSystem) (file other : Path) : Prop :=
  file = other ∨ ∃ bytes, fs.read file = .ok bytes ∧ fs.read other = .ok bytes

theorem fst_entriesOf_congr (file other : Path) (document : Yaml.Value) :
    (entriesOf file document).1 = (entriesOf other document).1 := by
  unfold entriesOf
  split
  · rfl
  · split <;> rfl

/-- Every text of the one list of files is one of the other. -/
def TextsAmong (fs : FileSystem) (files others : List Path) : Prop :=
  ∀ file ∈ files, ∃ other ∈ others, SameText fs file other

section Texts

variable [Yaml.Library]

theorem SameText.readDocument_eq (h : SameText fs file other) :
    readDocument fs file = readDocument fs other := by
  rcases h with rfl | ⟨bytes, hfile, hother⟩
  · rfl
  · rw [readDocument_of_read hfile, readDocument_of_read hother]

theorem SameText.entriesAt_eq (h : SameText fs file other) : entriesAt fs file = entriesAt fs other := by
  rw [entriesAt, entriesAt, h.readDocument_eq]
  split
  · exact fst_entriesOf_congr file other _
  · rfl

variable [Pattern.Compiler]

theorem SameText.rulesAt_eq (h : SameText fs file other) : rulesAt fs file = rulesAt fs other := by
  rw [rulesAt, rulesAt, h.entriesAt_eq]

theorem SameText.breaks_iff (h : SameText fs file other) : Breaks fs file ↔ Breaks fs other := by
  rw [Breaks, Breaks, breaksDocument_iff, breaksDocument_iff, h.readDocument_eq, h.entriesAt_eq]

theorem TextsAmong.not_breaks (h : TextsAmong fs files others)
    (hothers : ∀ other ∈ others, ¬ Breaks fs other) : ∀ file ∈ files, ¬ Breaks fs file := by
  intro file hfile hbreaks
  obtain ⟨other, hother, hsame⟩ := h file hfile
  exact hothers other hother (hsame.breaks_iff.1 hbreaks)

theorem TextsAmong.rules_subset (h : TextsAmong fs files others) :
    files.flatMap (rulesAt fs) ⊆ others.flatMap (rulesAt fs) := by
  intro rule hrule
  obtain ⟨file, hfile, hrule⟩ := List.mem_flatMap.1 hrule
  obtain ⟨other, hother, hsame⟩ := h file hfile
  exact List.mem_flatMap.2 ⟨other, hother, hsame.rulesAt_eq ▸ hrule⟩

end Texts

theorem forTarget_subset {rules others : List FileRule} (h : rules ⊆ others) (target : RuleTarget) :
    forTarget target rules ⊆ forTarget target others := by
  apply List.map_subset
  intro rule hrule
  obtain ⟨hmem, htarget⟩ := List.mem_filter.1 hrule
  exact List.mem_filter.2 ⟨h hmem, htarget⟩

end RuleFile

open RuleFile

theorem Config.score_engineWith_congr {rules others : List FileRule} (h : rules ⊆ others) (h' : others ⊆ rules)
    (name : String) (literal : Option String) :
    (engineWith rules).score name literal = (engineWith others).score name literal := by
  have hextended : ∀ (base : List Rule) (target : RuleTarget) (rule : Rule),
      rule ∈ base ++ forTarget target rules ↔ rule ∈ base ++ forTarget target others := by
    intro base target rule
    simp only [List.mem_append]
    exact or_congr_right ⟨(forTarget_subset h target ·), (forTarget_subset h' target ·)⟩
  exact Engine.score_congr (hextended _ .name) (hextended _ .value)

namespace CommandLine

variable {s : Session} {config config' : Config} {more more' : List Path} {engine : Engine}

section Scans

variable [Yaml.Library] [Pattern.Compiler]

/-- Two scans with the same rule files score alike. -/
theorem score_engineFor (htells : config'.TellsRuleFiles s.fs)
    (htexts : TextsAmong s.fs (config.ruleFilesWith s.fs more) (config'.ruleFilesWith s.fs more'))
    (htexts' : TextsAmong s.fs (config'.ruleFilesWith s.fs more') (config.ruleFilesWith s.fs more))
    (h : ((engineFor config more).run.run s).1 = .ok engine) :
    ∃ other, ((engineFor config' more').run.run s).1 = .ok other ∧
      ∀ name literal, other.score name literal = engine.score name literal := by
  obtain ⟨-, hnot, rfl⟩ := engineFor_eq_ok_iff.1 h
  exact ⟨_, engineFor_eq_ok_iff.2 ⟨htells, htexts'.not_breaks hnot, rfl⟩,
    Config.score_engineWith_congr htexts'.rules_subset htexts.rules_subset⟩

/-- Scores depend on the set of rules alone, so that it does not matter how the rule files of a scan are
named and in which order, as long as it can be told of each whether it is there.  More rules take no score
away; they raise a score that a rule gave to their own severities, and lower none if all of them are at
least medium.  To the built-in rules for values, a literal is never in favour of a candidate. -/
theorem scores_by_ruleSet :
    (∀ (engine other : Engine) (name : String) (literal : Option String),
      (∀ rule, rule ∈ engine.nameRules ↔ rule ∈ other.nameRules) →
        (∀ rule, rule ∈ engine.valueRules ↔ rule ∈ other.valueRules) →
          engine.score name literal = other.score name literal) ∧
    (∀ (s : Session) (config config' : Config) (more more' : List Path) (engine : Engine),
      config'.TellsRuleFiles s.fs →
        TextsAmong s.fs (config.ruleFilesWith s.fs more) (config'.ruleFilesWith s.fs more') →
        TextsAmong s.fs (config'.ruleFilesWith s.fs more') (config.ruleFilesWith s.fs more) →
          ((engineFor config more).run.run s).1 = .ok engine →
            ∃ engine', ((engineFor config' more').run.run s).1 = .ok engine' ∧
              ∀ name literal, engine'.score name literal = engine.score name literal) ∧
    ∀ (engine : Engine) (names values : List Rule) (name : String) (literal : Option String),
      (engine.score name literal ≠ none → (engine.extend names values).score name literal ≠ none) ∧
      (engine.matching name literal ≠ [] →
        level ((engine.extend names values).score name literal) =
          level (engine.score name literal) ⊔ highest (Engine.matching ⟨names, values⟩ name literal)) ∧
      ((∀ rule ∈ names ++ values, Severity.medium ≤ rule.severity) →
        level (engine.score name literal) ≤ level ((engine.extend names values).score name literal)) ∧
      (engine.valueRules = Rule.valueRules →
        level (engine.score name none) ≤ level (engine.score name literal)) := by
  refine ⟨fun _ _ _ _ => Engine.score_congr, fun _ _ _ _ _ _ htells => score_engineFor htells, ?_⟩
  intro engine names values name literal
  refine ⟨Engine.score_extend_ne_none, Engine.score_extend_of_matching, Engine.score_le_score_extend, ?_⟩
  intro hvalues
  apply Engine.score_none_le
  rw [hvalues]
  exact Engine.fallbackSeverity_le_of_mem_valueRules

end Scans

/-- A rule file under two names. -/
def sharedRuleFiles : FileSystem where
  root := .dir
    [("rules.yaml", .file "rules:\n- pattern: vault\n  severity: low\n".toUTF8),
      ("more.yaml", .link "rules.yaml")]

/-- A rule that is below the severity of the heuristics. -/
def vaultRule : Rule := ⟨(Pattern.text "vault").ignoringCase, .low⟩

open scoped Libraries in
theorem scores_by_ruleSet_sharedRuleFiles :
    let listed : Config := { ruleFiles := ["rules.yaml"] }
    let given : List Path := [⟨.here, ["more.yaml"]⟩, ⟨.here, ["rules.yaml"]⟩]
    let repeated : Engine := ⟨Rule.nameRules.reverse ++ Rule.nameRules, Rule.valueRules⟩
    let lenient := Engine.builtIn.extend [vaultRule] []
    let strict := Engine.builtIn.extend [⟨vaultRule.pattern, .high⟩] []
    Engine.builtIn.score "apiKey" = repeated.score "apiKey" ∧
    (∃ engine engine', ((engineFor listed []).run.run { fs := sharedRuleFiles }).1 = .ok engine ∧
      ((engineFor {} given).run.run { fs := sharedRuleFiles }).1 = .ok engine' ∧
        ∀ name literal, engine'.score name literal = engine.score name literal) ∧
    lenient.score "VAULT" ≠ none ∧
    level (lenient.score "VAULT_KEY") =
      level (Engine.builtIn.score "VAULT_KEY") ⊔ highest (Engine.matching ⟨[vaultRule], []⟩ "VAULT_KEY" none) ∧
    level (Engine.builtIn.score "VAULT") ≤ level (strict.score "VAULT") ∧
    level (Engine.builtIn.score "title" none) ≤ level (Engine.builtIn.score "title" (some "sk_test_")) := by
  intro listed given repeated lenient strict
  have hlisted : listed.ruleFilesWith sharedRuleFiles [] = [⟨.here, ["rules.yaml"]⟩] := by decide +kernel
  have hgiven : ({} : Config).ruleFilesWith sharedRuleFiles given = given := by decide +kernel
  have hmore : SameText sharedRuleFiles ⟨.here, ["more.yaml"]⟩ ⟨.here, ["rules.yaml"]⟩ :=
    .inr ⟨"rules:\n- pattern: vault\n  severity: low\n".toUTF8, by decide +kernel, by decide +kernel⟩
  have hok : ((engineFor listed []).run.run { fs := sharedRuleFiles }).1.isOk = true := by decide +kernel
  have hmatching : (Engine.builtIn.matching "VAULT_KEY" none).isEmpty = false := by decide +kernel
  obtain ⟨hset, hfiles, hextend⟩ := scores_by_ruleSet
  refine ⟨hset _ repeated _ _ (by simp [repeated, Engine.builtIn]) fun _ => Iff.rfl, ?_,
    (hextend _ _ _ _ _).1 (by decide +kernel),
    (hextend _ _ _ _ _).2.1 (List.isEmpty_eq_false_iff.1 hmatching),
    (hextend _ _ _ _ _).2.2.1 (by decide), (hextend _ [] [] _ _).2.2.2 rfl⟩
  obtain ⟨engine, hengine⟩ := isOk_iff.1 hok
  have htells : ({} : Config).TellsRuleFiles sharedRuleFiles := by simp [Config.TellsRuleFiles]
  refine ⟨engine, (hfiles _ _ _ _ _ _ htells ?_ ?_ hengine).imp fun _ h => ⟨hengine, h⟩⟩
  · rw [hlisted, hgiven]
    intro file hfile
    exact ⟨file, List.mem_cons_of_mem _ hfile, .inl rfl⟩
  · rw [hlisted, hgiven]
    intro file hfile
    refine ⟨⟨.here, ["rules.yaml"]⟩, List.mem_cons_self, ?_⟩
    rcases List.mem_cons.1 hfile with rfl | hfile
    · exact hmore
    · exact .inl (List.mem_singleton.1 hfile)

end CommandLine

end EnvAudit
