import EnvAudit.Libraries
import EnvAudit.Proofs.RuleFile
import EnvAudit.Proofs.Yaml.Shown

/-!
# The rules of valid entries

Files come to the rules of their valid entries, file after file and entry after entry.  Each entry is
judged by itself, so that it does not matter what stands before or after it, or how the entries are
spread over files.
-/

namespace EnvAudit

/-- The word by which an entry names its target. -/
def RuleTarget.word : RuleTarget → String
  | name => "name"
  | value => "value"

theorem RuleTarget.ofName?_eq_some_iff {word : String} {target : RuleTarget} :
    ofName? word = some target ↔ word = target.word := by
  constructor
  · intro h
    rw [ofName?.eq_def] at h
    split at h <;> cases h <;> rfl
  · rintro rfl
    cases target <;> rfl

namespace RuleFile

open Yaml (Value)

variable {entry : Value} {target : RuleTarget} {r : FileRule} {source : String}

/-- An entry speaks about the target whose word stands in it, and about identifiers if none does. -/
def Names (target : RuleTarget) : Option Value → Prop
  | none => target = .name
  | some (.text word) => word = target.word
  | some _ => False

instance (target : RuleTarget) : (v : Option Value) → Decidable (Names target v)
  | none => inferInstanceAs (Decidable (target = .name))
  | some (.text word) => inferInstanceAs (Decidable (word = target.word))
  | some .null | some (.bool _) | some (.int _) | some (.float _) | some (.bytes _) | some (.date _)
  | some (.timestamp _) | some (.list _) | some (.pair _ _) | some (.set _) | some (.map _)
  | some (.around _ _) => inferInstanceAs (Decidable False)

def ignoresCase (entry : Value) : Bool := ((entry.field? "ignore_case").map (·.isTruthy)).getD true

def severityOf? (entry : Value) : Option Severity :=
  (entry.field? "severity").bind fun v => (Severity.parse v.toText).toOption

theorem Names.inj {other : RuleTarget} {v : Option Value} (h : Names target v) (h' : Names other v) :
    target = other := by
  match v with
  | none => exact h.trans h'.symm
  | some (.text word) =>
      exact Option.some.inj ((RuleTarget.ofName?_eq_some_iff.2 h).symm.trans
        (RuleTarget.ofName?_eq_some_iff.2 h'))

section Rules

variable [Pattern.Compiler]

def patternOf? (entry : Value) : Option Pattern.Parsed :=
  (entry.field? "pattern").bind fun v => (Pattern.Compiler.compile v.toText (ignoresCase entry)).toOption

/-- An entry that makes a rule for a target. -/
structure Valid (target : RuleTarget) (entry : Value) : Prop where
  isMap : entry.isMap = true
  names : Names target (entry.field? "target")
  severity : (severityOf? entry).isSome = true
  pattern : (patternOf? entry).isSome = true

theorem valid_iff : Valid target entry ↔
    (entry.isMap = true ∧ Names target (entry.field? "target")) ∧
      (severityOf? entry).isSome = true ∧ (patternOf? entry).isSome = true :=
  ⟨fun h => ⟨⟨h.isMap, h.names⟩, h.severity, h.pattern⟩, fun h => ⟨h.1.1, h.1.2, h.2.1, h.2.2⟩⟩

instance : Decidable (Valid target entry) := decidable_of_iff _ valid_iff.symm

/-- The rule is the one that an entry stands for. -/
structure IsRule (entry : Value) (r : FileRule) : Prop where
  names : Names r.target (entry.field? "target")
  severity : severityOf? entry = some r.rule.severity
  source : (entry.field? "pattern").map Value.toText = some r.source
  pattern : patternOf? entry = some ⟨r.rule.pattern, r.ignoreCase⟩

theorem IsRule.valid (h : IsRule entry r) : Valid r.target entry where
  isMap := by
    obtain ⟨v, hv, -⟩ := Option.map_eq_some_iff.1 h.source
    exact Value.isMap_of_field? hv
  names := h.names
  severity := by rw [h.severity]; rfl
  pattern := by rw [h.pattern]; rfl

/-- At most one rule is that of an entry. -/
theorem IsRule.unique {other : FileRule} (h : IsRule entry r) (h' : IsRule entry other) : r = other := by
  obtain ⟨target, source, ignoreCase, pattern, severity⟩ := r
  obtain ⟨target', source', ignoreCase', pattern', severity'⟩ := other
  obtain rfl : target = target' := h.names.inj h'.names
  obtain rfl := Option.some.inj (h.severity.symm.trans h'.severity)
  obtain rfl := Option.some.inj (h.source.symm.trans h'.source)
  obtain ⟨rfl, rfl⟩ := Pattern.Parsed.mk.inj (Option.some.inj (h.pattern.symm.trans h'.pattern))
  rfl

theorem Valid.exists_isRule (h : Valid target entry) : ∃ r, IsRule entry r ∧ r.target = target := by
  obtain ⟨severity, hseverity⟩ := Option.isSome_iff_exists.1 h.severity
  obtain ⟨parsed, hparsed⟩ := Option.isSome_iff_exists.1 h.pattern
  obtain ⟨v, hv, -⟩ := Option.bind_eq_some_iff.1 hparsed
  exact ⟨⟨target, v.toText, parsed.ignoreCase, ⟨parsed.pattern, severity⟩⟩,
    ⟨h.names, hseverity, by rw [hv]; rfl, hparsed⟩, rfl⟩

end Rules

/-! ## Reading an entry -/

/-- A pattern is read, or its notation is broken. -/
def Settled : Except Pattern.ReadError Pattern.Parsed → Prop
  | .ok _ => True
  | .error cause => cause = .malformed

instance : (parsed : Except Pattern.ReadError Pattern.Parsed) → Decidable (Settled parsed)
  | .ok _ => inferInstanceAs (Decidable True)
  | .error cause => inferInstanceAs (Decidable (cause = .malformed))

/-- A reading has a result, and it is a value exactly if the value is as required. -/
def Reads {α : Type} (x : EntryRead α) (P : α → Prop) : Prop :=
  ∃ read, x.run = .ok read ∧ ∀ a, read = .ok a ↔ P a

namespace Reads

variable {α β : Type} {x : EntryRead α} {P : α → Prop}

theorem pure (a : α) : Reads (Pure.pure a) (· = a) :=
  ⟨.ok a, rfl, fun b => by rw [Except.ok.injEq, eq_comm]⟩

theorem throw (fault : EntryFault) : Reads (throw fault : EntryRead α) fun _ => False :=
  ⟨.error fault, rfl, fun _ => ⟨nofun, nofun⟩⟩

theorem throw_bind (fault : EntryFault) (f : α → EntryRead β) :
    Reads (MonadExcept.throw fault >>= f) fun _ => False :=
  ⟨.error fault, rfl, fun _ => ⟨nofun, nofun⟩⟩

theorem bind {f : α → EntryRead β} {Q : α → β → Prop} (hx : Reads x P)
    (hf : ∀ a, P a → Reads (f a) (Q a)) : Reads (x >>= f) fun b => ∃ a, P a ∧ Q a b := by
  obtain ⟨read, hread, hiff⟩ := hx
  cases read with
  | error fault =>
      refine ⟨.error fault, by rw [ExceptT.run_bind, hread]; rfl, fun b => ⟨nofun, ?_⟩⟩
      rintro ⟨a, ha, -⟩
      cases (hiff a).2 ha
  | ok a =>
      obtain ⟨next, hnext, hnextIff⟩ := hf a ((hiff a).1 rfl)
      refine ⟨next, by rw [ExceptT.run_bind, hread]; exact hnext, fun b => ?_⟩
      rw [hnextIff]
      constructor
      · exact fun hb => ⟨a, (hiff a).1 rfl, hb⟩
      · rintro ⟨other, hother, hb⟩
        obtain rfl := Except.ok.inj ((hiff other).2 hother)
        exact hb

theorem congr {Q : α → Prop} (hx : Reads x P) (h : ∀ a, P a ↔ Q a) : Reads x Q := by
  obtain ⟨read, hread, hiff⟩ := hx
  exact ⟨read, hread, fun a => (hiff a).trans (h a)⟩

theorem shown {v : Value} (h : v.HasText) : Reads (v.shown : EntryRead String) (· = v.toText) := by
  refine ⟨.ok v.toText, ?_, fun text => by rw [Except.ok.injEq, eq_comm]⟩
  rw [h.shown_eq]
  rfl

end Reads

theorem reads_required (entry : Value) (field : String) :
    Reads (required entry field) (entry.field? field = some ·) := by
  rw [required]
  cases entry.field? field with
  | none => exact (Reads.throw _).congr fun v => by simp
  | some found => exact (Reads.pure _).congr fun v => by rw [Option.some.injEq, eq_comm]

theorem reads_targetOf (h : ∀ v ∈ entry.field? "target", v.HasText) :
    Reads (targetOf entry) (Names · (entry.field? "target")) := by
  rw [targetOf]
  cases hfield : entry.field? "target" with
  | none => exact Reads.pure _
  | some v =>
      have hshown (hnone : ∀ target, ¬ Names target (some v)) :
          Reads (do throw (.target (← v.shown)) : EntryRead RuleTarget) (Names · (some v)) :=
        ((Reads.shown (h v hfield)).bind fun text _ => Reads.throw _).congr fun target =>
          ⟨fun ⟨_, _, hfalse⟩ => hfalse.elim, fun hnames => (hnone target hnames).elim⟩
      cases v with
      | text word =>
          cases hword : RuleTarget.ofName? word with
          | none =>
              simp only [hword]
              refine hshown fun target hnames => ?_
              cases hword.symm.trans (RuleTarget.ofName?_eq_some_iff.2 hnames)
          | some found =>
              simp only [hword]
              refine (Reads.pure found).congr fun target => ?_
              rw [Names, ← RuleTarget.ofName?_eq_some_iff, hword, Option.some.injEq, eq_comm]
      | _ => exact hshown fun _ => id

theorem reads_level {severity : Value} :
    Reads (ExceptT.mk (.ok ((Severity.parse severity.toText).mapError fun e => .severity e.text)) :
      EntryRead Severity) ((Severity.parse severity.toText).toOption = some ·) := by
  refine ⟨_, rfl, fun level => ?_⟩
  cases Severity.parse severity.toText with
  | error cause => exact ⟨nofun, nofun⟩
  | ok found =>
      exact ⟨fun h => congrArg some (Except.ok.inj h), fun h => congrArg Except.ok (Option.some.inj h)⟩

section Entries

variable [Pattern.Compiler]

/-- What is to be shown of an entry has a text, and its pattern is read unless it is malformed. -/
structure Orderly (entry : Value) : Prop where
  hasTexts : ∀ name ∈ ["target", "severity", "pattern"], ∀ v ∈ entry.field? name, v.HasText
  settled : ∀ v ∈ entry.field? "pattern",
    Settled (Pattern.Compiler.compile v.toText (ignoresCase entry))

instance (entry : Value) : Decidable (Orderly entry) :=
  decidable_of_iff
    ((∀ name ∈ ["target", "severity", "pattern"], ∀ v ∈ entry.field? name, v.HasText) ∧
      ∀ v ∈ entry.field? "pattern", Settled (Pattern.Compiler.compile v.toText (ignoresCase entry)))
    ⟨fun h => ⟨h.1, h.2⟩, fun h => ⟨h.hasTexts, h.settled⟩⟩

/-- The parts of an entry are read one after the other. -/
theorem reads_parts (h : Orderly entry) :
    Reads (parts entry) fun (target, severity, source, ignoreCase) =>
      Names target (entry.field? "target") ∧ severityOf? entry = some severity ∧
        (entry.field? "pattern").map Value.toText = some source ∧ ignoreCase = ignoresCase entry := by
  rw [parts]
  cases hmap : entry.isMap with
  | false =>
      refine (Reads.throw_bind .notMapping _).congr ?_
      rintro ⟨target, severity, source, ignoreCase⟩
      simp [Value.field?_of_not_isMap hmap]
  | true =>
      simp only [Bool.not_true, Bool.false_eq_true, if_false]
      refine ((reads_required entry "pattern").bind fun pattern hpattern =>
        (reads_required entry "severity").bind fun severity hseverity =>
          (reads_targetOf (h.hasTexts "target" (by simp))).bind fun target htarget =>
            (Reads.shown (h.hasTexts "severity" (by simp) severity hseverity)).bind fun level hlevel =>
              (hlevel ▸ reads_level).bind fun found hfound =>
                (Reads.shown (h.hasTexts "pattern" (by simp) pattern hpattern)).bind fun source hsource =>
                  Reads.pure (target, found, source, ignoresCase entry)).congr ?_
      rintro ⟨target, severity, source, ignoreCase⟩
      simp only [severityOf?, Option.bind_eq_some_iff, Option.map_eq_some_iff, Prod.mk.injEq]
      constructor
      · rintro ⟨pattern, hpattern, v, hseverity, _, hnames, _, rfl, _, hlevel, _, rfl, rfl, rfl, rfl, rfl⟩
        exact ⟨hnames, ⟨v, hseverity, hlevel⟩, ⟨pattern, hpattern, rfl⟩, rfl⟩
      · rintro ⟨hnames, ⟨v, hseverity, hlevel⟩, ⟨pattern, hpattern, rfl⟩, rfl⟩
        exact ⟨pattern, hpattern, v, hseverity, _, hnames, _, rfl, _, hlevel, _, rfl, rfl, rfl, rfl, rfl⟩

theorem Orderly.settled_of_source (h : Orderly entry)
    (hsource : (entry.field? "pattern").map Value.toText = some source) :
    Settled (Pattern.Compiler.compile source (ignoresCase entry)) := by
  obtain ⟨v, hv, rfl⟩ := Option.map_eq_some_iff.1 hsource
  exact h.settled v hv

/-- The pattern of an entry is its source, read. -/
theorem patternOf?_of_source (hsource : (entry.field? "pattern").map Value.toText = some source) :
    patternOf? entry = (Pattern.Compiler.compile source (ignoresCase entry)).toOption := by
  obtain ⟨v, hv, rfl⟩ := Option.map_eq_some_iff.1 hsource
  rw [patternOf?, hv, Option.bind_some]

/-- Reading an orderly entry goes through, with the rule that the entry stands for if there is one. -/
theorem exists_rule (h : Orderly entry) :
    ∃ read, rule entry = .ok read ∧ ∀ r, read = .ok r ↔ IsRule entry r := by
  obtain ⟨read, hread, hiff⟩ := reads_parts h
  rw [rule, hread]
  cases read with
  | error fault =>
      refine ⟨_, rfl, fun r => ⟨fun heq => ?_, fun hr => ?_⟩⟩
      · cases heq
      · cases (hiff (r.target, r.rule.severity, r.source, _)).2
          ⟨hr.names, hr.severity, hr.source, rfl⟩
  | ok found =>
      obtain ⟨target, severity, source, ignoreCase⟩ := found
      obtain ⟨hnames, hseverity, hsource, rfl⟩ := (hiff _).1 rfl
      have hpattern := patternOf?_of_source hsource
      have hsettled := h.settled_of_source hsource
      cases hparse : Pattern.Compiler.compile source (ignoresCase entry) with
      | ok parsed =>
          rw [hparse] at hpattern
          simp only [hparse]
          refine ⟨_, rfl, fun r => ⟨?_, fun hr => ?_⟩⟩
          · intro heq
            obtain rfl := Except.ok.inj heq
            exact ⟨hnames, hseverity, hsource, hpattern⟩
          · exact congrArg Except.ok (IsRule.unique ⟨hnames, hseverity, hsource, hpattern⟩ hr)
      | error cause =>
          rw [hparse] at hpattern hsettled
          obtain rfl : cause = .malformed := hsettled
          simp only [hparse]
          refine ⟨_, rfl, fun r => ⟨fun heq => ?_, fun hr => ?_⟩⟩
          · cases heq
          · cases hpattern.symm.trans hr.pattern

theorem Orderly.not_breaksEntry (h : Orderly entry) : ¬ BreaksEntry entry := by
  rw [breaksEntry_iff]
  rintro ⟨cause, hcause⟩
  obtain ⟨read, hread, -⟩ := exists_rule h
  cases hcause.symm.trans hread

theorem rule?_eq_some_iff (h : Orderly entry) : rule? entry = some r ↔ IsRule entry r := by
  obtain ⟨read, hread, hiff⟩ := exists_rule h
  rw [← hiff, rule?, hread]
  cases read with
  | error fault =>
      constructor
      · intro heq
        cases heq
      · intro heq
        cases heq
  | ok found =>
      constructor
      · intro heq
        exact congrArg Except.ok (Option.some.inj heq)
      · intro heq
        exact congrArg some (Except.ok.inj heq)

end Entries

/-! ## Loading files -/

variable {fs : FileSystem} {file : Path} {files : List Path} {entries : List Value}

theorem fst_entriesOf (file : Path) (document : Value) :
    (entriesOf file document).1 = Value.itemsOf (document.field? "rules") := by
  rw [entriesOf]
  cases document.field? "rules" with
  | none => rfl
  | some v =>
      rw [Value.itemsOf_some]
      cases htruthy : v.isTruthy with
      | false =>
          have hempty : Value.truthyOr (some v) (.list []) = .list [] := by
            rw [Value.truthyOr, Option.filter_some_neg (by simp [htruthy]), Option.getD_none]
          simp only [hempty, Value.items?_of_not_isTruthy htruthy]
          rfl
      | true =>
          have hsame : Value.truthyOr (some v) (.list []) = v := by
            rw [Value.truthyOr, Option.filter_some_pos htruthy, Option.getD_some]
          simp only [hsame]
          cases v.items? <;> rfl

section Files

variable [Pattern.Compiler]

/-- The rules of entries for a target are those of its valid entries, one for each and in their order. -/
theorem forall₂_rules (h : ∀ entry ∈ entries, Orderly entry) (target : RuleTarget) :
    List.Forall₂ IsRule (entries.filter fun entry => decide (Valid target entry))
      ((entries.filterMap rule?).filter (·.target == target)) := by
  induction entries with
  | nil => exact .nil
  | cons entry entries ih =>
      obtain ⟨hentry, hentries⟩ := List.forall_mem_cons.1 h
      rw [List.filterMap_cons, List.filter_cons]
      cases hrule : rule? entry with
      | none =>
          rw [if_neg]
          · exact ih hentries
          · intro hvalid
            obtain ⟨r, hr, -⟩ := (of_decide_eq_true hvalid).exists_isRule
            cases hrule.symm.trans ((rule?_eq_some_iff hentry).2 hr)
      | some r =>
          have hr := (rule?_eq_some_iff hentry).1 hrule
          have hiff : Valid target entry ↔ r.target = target := by
            constructor
            · exact fun hvalid => hr.names.inj hvalid.names
            · rintro rfl
              exact hr.valid
          rw [List.filter_cons]
          by_cases htarget : r.target = target
          · rw [if_pos (decide_eq_true (hiff.2 htarget)), if_pos (beq_iff_eq.2 htarget)]
            exact .cons hr (ih hentries)
          · rw [if_neg (by simpa [hiff] using htarget), if_neg (by simpa using htarget)]
            exact ih hentries

variable [Yaml.Library]

/-- The entries that a file lists; a file that holds no list of rules has none. -/
def listed (fs : FileSystem) (file : Path) : List Value :=
  match readDocument fs file with
  | .ok document => Value.itemsOf (document.field? "rules")
  | .error _ => []

/-- A file is a document with orderly entries, or it is refused or malformed. -/
def Loadable (fs : FileSystem) (file : Path) : Prop :=
  match readDocument fs file with
  | .ok document => ∀ entry ∈ Value.itemsOf (document.field? "rules"), Orderly entry
  | .error cause => cause.isRecorded = true

instance (fs : FileSystem) (file : Path) : Decidable (Loadable fs file) :=
  match h : readDocument fs file with
  | .ok document =>
    decidable_of_iff (∀ entry ∈ Value.itemsOf (document.field? "rules"), Orderly entry)
      (by rw [Loadable, h])
  | .error cause => decidable_of_iff (cause.isRecorded = true) (by rw [Loadable, h])

omit [Pattern.Compiler] in
theorem entriesAt_eq_listed : entriesAt fs file = listed fs file := by
  rw [entriesAt, listed]
  cases readDocument fs file with
  | ok document => exact fst_entriesOf file document
  | error cause => rfl

theorem Loadable.orderly (h : Loadable fs file) : ∀ entry ∈ listed fs file, Orderly entry := by
  rw [Loadable] at h
  rw [listed]
  cases hread : readDocument fs file with
  | ok document => simpa only [hread] using h
  | error cause => exact nofun

theorem Loadable.not_breaks (h : Loadable fs file) : ¬ Breaks fs file := by
  rintro (hbreaks | ⟨entry, hentry, hbreaks⟩)
  · obtain ⟨cause, hcause, hrecorded⟩ := breaksDocument_iff.1 hbreaks
    rw [Loadable, hcause] at h
    cases hrecorded.symm.trans h
  · rw [entriesAt_eq_listed] at hentry
    exact (h.orderly entry hentry).not_breaksEntry hbreaks

/-- What files come to depends on the entries alone that they list one after the other. -/
theorem value_loadAll_of_loadable (h : ∀ file ∈ files, Loadable fs file) :
    (loadAll fs files).value = .ok ((files.flatMap (listed fs)).filterMap rule?) := by
  refine value_loadAll_eq_ok_iff.2 ⟨fun file hfile => (h file hfile).not_breaks, ?_⟩
  rw [List.filterMap_flatMap]
  exact List.flatMap_congr fun file _ => by rw [rulesAt, entriesAt_eq_listed]

/-- Loading files comes for each target to the rules of the valid entries for it, in the order of the
files and of the entries in them.  It takes joined lists of files, and lists of entries joined in any
way, to joined lists of rules. -/
theorem loadAll_exact (h : ∀ file ∈ files, Loadable fs file) :
    ∃ rules, (loadAll fs files).value = .ok rules ∧
      (∀ target, ∃ here, forTarget target rules = here.map (·.rule) ∧
        List.Forall₂ IsRule
          ((files.flatMap (listed fs)).filter fun entry => decide (Valid target entry)) here) ∧
      (∀ front back, files = front ++ back → ∃ first second,
        (loadAll fs front).value = .ok first ∧ (loadAll fs back).value = .ok second ∧
          rules = first ++ second) ∧
      ∀ fs₁ files₁ fs₂ files₂, (∀ file ∈ files₁, Loadable fs₁ file) →
        (∀ file ∈ files₂, Loadable fs₂ file) →
          files.flatMap (listed fs) = files₁.flatMap (listed fs₁) ++ files₂.flatMap (listed fs₂) →
            ∃ first second, (loadAll fs₁ files₁).value = .ok first ∧
              (loadAll fs₂ files₂).value = .ok second ∧ rules = first ++ second := by
  refine ⟨_, value_loadAll_of_loadable h, fun target => ⟨_, rfl, forall₂_rules ?_ target⟩, ?_, ?_⟩
  · intro entry hentry
    obtain ⟨file, hfile, hentry⟩ := List.mem_flatMap.1 hentry
    exact (h file hfile).orderly entry hentry
  · rintro front back rfl
    obtain ⟨hfront, hback⟩ := List.forall_mem_append.1 h
    refine ⟨_, _, value_loadAll_of_loadable hfront, value_loadAll_of_loadable hback, ?_⟩
    rw [List.flatMap_append, List.filterMap_append]
  · intro fs₁ files₁ fs₂ files₂ h₁ h₂ hlisted
    refine ⟨_, _, value_loadAll_of_loadable h₁, value_loadAll_of_loadable h₂, ?_⟩
    rw [hlisted, List.filterMap_append]

end Files

/-- A malformed file, and one in which two of five entries are valid. -/
def mixedFiles : FileSystem where
  root := .dir
    [("bad.yaml", .file "rules: [".toUTF8),
      ("rules.yaml", .file
        ("rules:\n- text\n- pattern: TOKEN\n  severity: LOW\n" ++
          "- target: value\n  pattern: (\n  severity: high\n" ++
          "- target: value\n  pattern: ^xoxb-\n  severity: high\n- pattern: KEY\n").toUTF8)]

def mixedPaths : List Path := [⟨.here, ["bad.yaml"]⟩, ⟨.here, ["rules.yaml"]⟩]

open scoped Libraries in
theorem loadAll_exact_mixedFiles :
    (∀ file ∈ mixedPaths, Loadable mixedFiles file) ∧
      ∃ rules, (loadAll mixedFiles mixedPaths).value = .ok rules ∧
        ∀ target, (forTarget target rules).length = 1 := by
  have h : ∀ file ∈ mixedPaths, Loadable mixedFiles file := by decide +kernel
  obtain ⟨rules, hrules, htargets, -⟩ := loadAll_exact h
  refine ⟨h, rules, hrules, fun target => ?_⟩
  obtain ⟨here, hhere, hvalid⟩ := htargets target
  rw [hhere, List.length_map, ← hvalid.length_eq]
  cases target <;> decide +kernel

end RuleFile

end EnvAudit
