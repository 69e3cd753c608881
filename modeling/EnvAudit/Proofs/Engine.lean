import EnvAudit.Engine
import EnvAudit.Proofs.SeverityOrder

/-!
# Rules and scores

A score is the greatest severity of the rules that apply, whatever their order and number, and only where
none applies do the heuristics decide.  More rules can therefore lower a score in one way alone: by a rule
that is below the severity of the heuristics and applies where no other one did.
-/

namespace EnvAudit

open Severity (level)

/-- The rules that apply to a text. -/
def applicable (rules : List Rule) (text : String) : List Rule := rules.filter (·.appliesTo text)

/-- The greatest severity of rules, absent where there are none. -/
def highest (rules : List Rule) : WithBot Severity := (rules.map (·.severity)).maximum

theorem highest_append (first second : List Rule) :
    highest (first ++ second) = highest first ⊔ highest second := by
  induction first with
  | nil => exact (bot_sup_eq (highest second)).symm
  | cons rule first ih =>
      have hcons : ∀ rules, highest (rule :: rules) = (rule.severity : WithBot Severity) ⊔ highest rules :=
        fun rules => List.maximum_cons rule.severity (rules.map Rule.severity)
      rw [List.cons_append, hcons, hcons, ih, sup_assoc]

theorem highest_eq_bot_iff {rules : List Rule} : highest rules = ⊥ ↔ rules = [] := by
  rw [highest, List.maximum_eq_bot, List.map_eq_nil_iff]

/-- Only which rules there are counts. -/
theorem highest_congr {first second : List Rule} (h : ∀ rule, rule ∈ first ↔ rule ∈ second) :
    highest first = highest second :=
  le_antisymm (List.maximum_mono (List.map_subset _ fun rule => (h rule).1))
    (List.maximum_mono (List.map_subset _ fun rule => (h rule).2))

theorem le_highest {rules : List Rule} {severity : Severity} (hne : rules ≠ [])
    (h : ∀ rule ∈ rules, severity ≤ rule.severity) : (severity : WithBot Severity) ≤ highest rules := by
  obtain ⟨rule, hrule⟩ := List.exists_mem_of_ne_nil rules hne
  calc (severity : WithBot Severity)
      ≤ rule.severity := WithBot.coe_le_coe.2 (h rule hrule)
    _ ≤ highest rules := List.le_maximum_of_mem' (List.mem_map_of_mem hrule)

theorem level_classify (rules : List Rule) (text : String) :
    level (classify rules text) = highest (applicable rules text) := by
  rw [classify, ← applicable]
  induction applicable rules text using List.reverseRecOn with
  | nil => rfl
  | append_singleton rules rule ih =>
      rw [List.foldl_concat, Severity.level_higher?, ih, highest_append]
      rfl

namespace Engine

variable {engine other : Engine} {names values : List Rule} {name : String} {literal : Option String}
  {rule : Rule}

/-- The rules of an engine that apply to a candidate. -/
def matching (engine : Engine) (name : String) (literal : Option String) : List Rule :=
  applicable engine.nameRules name ++ (literal.map (applicable engine.valueRules)).getD []

theorem mem_matching_iff :
    rule ∈ engine.matching name literal ↔
      (rule ∈ engine.nameRules ∧ rule.appliesTo name = true) ∨
        ∃ value ∈ literal, rule ∈ engine.valueRules ∧ rule.appliesTo value = true := by
  cases literal <;> simp [matching, applicable]

theorem level_ruleScore (engine : Engine) (name : String) (literal : Option String) :
    level (engine.ruleScore name literal) = highest (engine.matching name literal) := by
  rw [ruleScore, Severity.level_higher?, matching, highest_append, level_classify]
  cases literal with
  | none => rfl
  | some value => exact congrArg (_ ⊔ ·) (level_classify engine.valueRules value)

/-- Where a rule applies, the score is the greatest severity of those that do. -/
theorem score_of_matching (h : engine.matching name literal ≠ []) :
    level (engine.score name literal) = highest (engine.matching name literal) := by
  have hne := mt highest_eq_bot_iff.1 h
  rw [← level_ruleScore] at hne ⊢
  rw [score]
  cases hscore : engine.ruleScore name literal with
  | none => exact absurd (congrArg level hscore) hne
  | some severity => rfl

/-- Where no rule applies, the heuristics decide. -/
theorem score_of_not_matching (h : engine.matching name literal = []) :
    engine.score name literal = if isSuspicious name literal then some fallbackSeverity else none := by
  have hnone : engine.ruleScore name literal = none := by
    apply Severity.level_injective
    rw [level_ruleScore, h]
    rfl
  rw [score, hnone]

/-- An engine scores by the set of its rules. -/
theorem score_congr (hnames : ∀ rule, rule ∈ engine.nameRules ↔ rule ∈ other.nameRules)
    (hvalues : ∀ rule, rule ∈ engine.valueRules ↔ rule ∈ other.valueRules) :
    engine.score name literal = other.score name literal := by
  have hmatching : ∀ rule, rule ∈ engine.matching name literal ↔ rule ∈ other.matching name literal := by
    intro rule
    simp only [mem_matching_iff, hnames, hvalues]
  have hrules : engine.ruleScore name literal = other.ruleScore name literal := by
    apply Severity.level_injective
    rw [level_ruleScore, level_ruleScore, highest_congr hmatching]
  rw [score, score, hrules]

/-! ## More rules -/

/-- What applies of an engine with more rules is what applied before, and what applies of those. -/
theorem highest_matching_extend :
    highest ((engine.extend names values).matching name literal) =
      highest (engine.matching name literal) ⊔ highest (Engine.matching ⟨names, values⟩ name literal) := by
  rw [← highest_append]
  apply highest_congr
  intro rule
  simp only [List.mem_append, mem_matching_iff, extend]
  grind

theorem matching_extend_eq_nil_iff :
    (engine.extend names values).matching name literal = [] ↔
      engine.matching name literal = [] ∧ Engine.matching ⟨names, values⟩ name literal = [] := by
  rw [← highest_eq_bot_iff, highest_matching_extend, sup_eq_bot_iff, highest_eq_bot_iff, highest_eq_bot_iff]

/-- A score that rules gave is raised to the severities of the rules that are added. -/
theorem score_extend_of_matching (h : engine.matching name literal ≠ []) :
    level ((engine.extend names values).score name literal) =
      level (engine.score name literal) ⊔ highest (Engine.matching ⟨names, values⟩ name literal) := by
  rw [score_of_matching (mt matching_extend_eq_nil_iff.1 fun hnil => h hnil.1), highest_matching_extend,
    score_of_matching h]

/-- A score that rules did not give yields to the rules that are added. -/
theorem score_extend_of_not_matching (h : engine.matching name literal = []) :
    level ((engine.extend names values).score name literal) =
      if Engine.matching ⟨names, values⟩ name literal = [] then level (engine.score name literal)
      else highest (Engine.matching ⟨names, values⟩ name literal) := by
  split
  · rename_i hadded
    rw [score_of_not_matching (matching_extend_eq_nil_iff.2 ⟨h, hadded⟩), score_of_not_matching h]
  · rename_i hadded
    rw [score_of_matching (mt matching_extend_eq_nil_iff.1 fun hnil => hadded hnil.2),
      highest_matching_extend, h]
    exact bot_sup_eq _

theorem score_extend_ne_none (h : engine.score name literal ≠ none) :
    (engine.extend names values).score name literal ≠ none := by
  have hlevel : level (engine.score name literal) ≠ ⊥ := h
  change level ((engine.extend names values).score name literal) ≠ ⊥
  by_cases hmatching : engine.matching name literal = []
  · rw [score_extend_of_not_matching hmatching]
    split
    · exact hlevel
    · rename_i hadded
      exact mt highest_eq_bot_iff.1 hadded
  · rw [score_extend_of_matching hmatching]
    exact fun hbot => hlevel (sup_eq_bot_iff.1 hbot).1

/-- Where no rule applies, a score is not above that of the heuristics. -/
theorem score_le_fallbackSeverity (h : engine.matching name literal = []) :
    level (engine.score name literal) ≤ fallbackSeverity := by
  rw [score_of_not_matching h]
  split
  · exact le_rfl
  · exact bot_le

/-- Rules that are not below the severity of the heuristics lower no score. -/
theorem score_le_score_extend (h : ∀ rule ∈ names ++ values, fallbackSeverity ≤ rule.severity) :
    level (engine.score name literal) ≤ level ((engine.extend names values).score name literal) := by
  by_cases hmatching : engine.matching name literal = []
  · rw [score_extend_of_not_matching hmatching]
    split
    · exact le_rfl
    · rename_i hadded
      refine (score_le_fallbackSeverity hmatching).trans (le_highest hadded fun rule hrule => h rule ?_)
      rcases mem_matching_iff.1 hrule with ⟨hrule, -⟩ | ⟨-, -, hrule, -⟩
      · exact List.mem_append_left _ hrule
      · exact List.mem_append_right _ hrule
  · rw [score_extend_of_matching hmatching]
    exact le_sup_left

/-! ## Literal values -/

/-- Without rules for values, a literal can only make a candidate suspicious. -/
theorem score_none_le_of_valueRules (h : engine.valueRules = []) :
    level (engine.score name) ≤ level (engine.score name literal) := by
  have hmatching : ∀ literal, engine.matching name literal = applicable engine.nameRules name := by
    intro literal
    cases literal <;> simp [matching, h, applicable]
  by_cases hname : applicable engine.nameRules name = []
  · rw [score_of_not_matching ((hmatching none).trans hname),
      score_of_not_matching ((hmatching literal).trans hname)]
    have hsuspicious : isSuspicious name none = true → isSuspicious name literal = true := by
      simp only [isSuspicious, Option.any_none, Bool.or_false, Bool.or_eq_true]
      exact Or.inl
    split
    · rename_i hmarked
      rw [if_pos (hsuspicious hmarked)]
    · exact bot_le
  · rw [score_of_matching (by rwa [hmatching]), score_of_matching (by rwa [hmatching]), hmatching,
      hmatching]

/-- A literal value lowers no score if the rules for values are not below the severity of the
heuristics. -/
theorem score_none_le (h : ∀ rule ∈ engine.valueRules, fallbackSeverity ≤ rule.severity) :
    level (engine.score name) ≤ level (engine.score name literal) := by
  let named : Engine := { engine with valueRules := [] }
  calc level (engine.score name)
      = level (named.score name) := rfl
    _ ≤ level (named.score name literal) := score_none_le_of_valueRules rfl
    _ ≤ level ((named.extend [] engine.valueRules).score name literal) := score_le_score_extend h
    _ = level (engine.score name literal) := by
      refine congrArg level (score_congr ?_ ?_) <;> simp [extend, named]

theorem fallbackSeverity_le_of_mem_valueRules :
    ∀ rule ∈ Rule.valueRules, fallbackSeverity ≤ rule.severity := by
  decide

end Engine

end EnvAudit
