import EnvAudit.Config.File
import EnvAudit.Proofs.Result
import Mathlib.Data.List.Basic

/-!
# Reading a written configuration

What is written for a configuration holds all of it but the directory.  Provided that the text of the
document is read as the document, the configuration comes back, and so do the configurations that are
made of it.
-/

namespace EnvAudit

/-! ## Documents as values -/

namespace Yaml

mutual

/-- The value that a document stands for. -/
def Document.value : Document → Value
  | .text s => .text s
  | .list texts => .list (texts.map .text)
  | .map fields => .map (entriesOf fields)

/-- The entries of a map with the given fields. -/
def entriesOf : List (String × Document) → List (Value × Value)
  | [] => []
  | (name, d) :: rest => (.text name, d.value) :: entriesOf rest

end

/-- The texts of a list that holds nothing else. -/
def textsOf? : List Value → Option (List String)
  | [] => some []
  | .text s :: rest => (textsOf? rest).map (s :: ·)
  | _ :: _ => none

theorem textsOf?_eq_some_iff {items : List Value} {texts : List String} :
    textsOf? items = some texts ↔ items = texts.map .text := by
  induction items generalizing texts with
  | nil => cases texts <;> simp [textsOf?]
  | cons v items ih =>
      cases v with
      | text s => cases texts <;> simp [textsOf?, ih, and_comm]
      | _ => cases texts <;> simp [textsOf?]

mutual

/-- Whether a value is that of a document. -/
def Document.isValue : Document → Value → Bool
  | .text s, .text t => s == t
  | .list texts, .list items => textsOf? items == some texts
  | .map fields, .map entries => areEntries fields entries
  | _, _ => false

def areEntries : List (String × Document) → List (Value × Value) → Bool
  | [], [] => true
  | (name, d) :: rest, (.text key, v) :: more => name == key && d.isValue v && areEntries rest more
  | _, _ => false

end

mutual

theorem Document.isValue_iff : (d : Document) → (v : Value) → (d.isValue v = true ↔ v = d.value)
  | .text s, v => by
      cases v with
      | text t => simpa [Document.isValue, Document.value] using eq_comm
      | _ => simp [Document.isValue, Document.value]
  | .list texts, v => by
      cases v <;> simp [Document.isValue, Document.value, textsOf?_eq_some_iff]
  | .map fields, v => by
      cases v with
      | map entries => simp [Document.isValue, Document.value, areEntries_iff fields entries]
      | _ => simp [Document.isValue, Document.value]

theorem areEntries_iff : (fields : List (String × Document)) → (entries : List (Value × Value)) →
    (areEntries fields entries = true ↔ entries = entriesOf fields)
  | [], entries => by cases entries <;> simp [areEntries, entriesOf]
  | (name, d) :: rest, entries => by
      cases entries with
      | nil => simp [areEntries, entriesOf]
      | cons entry more =>
          obtain ⟨key, v⟩ := entry
          cases key with
          | text key =>
              simp [areEntries, entriesOf, d.isValue_iff v, areEntries_iff rest more]
              grind
          | _ => simp [areEntries, entriesOf]

end

section Library

variable [Library]

/-- What is written for a map of texts, lists of texts and maps is read as this map. -/
def ReadsBack (fields : List (String × Document)) : Prop :=
  Library.read (Library.write fields).toUTF8 = .ok (.map (entriesOf fields))

instance (fields : List (String × Document)) : Decidable (ReadsBack fields) :=
  decidable_of_iff
    ((match Library.read (Library.write fields).toUTF8 with
      | .ok v => (Document.map fields).isValue v
      | .error _ => false) = true) <| by
    rw [ReadsBack]
    cases Library.read (Library.write fields).toUTF8 with
    | error fault => simp
    | ok v => simp [Document.isValue_iff, Document.value]

end Library

namespace Value

theorem fillItems_text (whole : Value) (level : Nat) (texts : List String) :
    fillItems whole level (texts.map .text) = texts.map .text := by
  induction texts with
  | nil => rfl
  | cons s texts ih => rw [List.map_cons, fillItems, ih, fill]; all_goals simp

end Value

mutual

/-- A document holds no places that stand for collections around them. -/
theorem Document.fill_value (whole : Value) (level : Nat) :
    (d : Document) → Value.fill whole level d.value = d.value
  | .text _ => rfl
  | .list texts => by rw [Document.value, Value.fill, Value.fillItems_text]
  | .map fields => by rw [Document.value, Value.fill, fillEntries_entriesOf]

theorem fillEntries_entriesOf (whole : Value) (level : Nat) :
    (fields : List (String × Document)) →
      Value.fillEntries whole level (entriesOf fields) = entriesOf fields
  | [] => rfl
  | (name, d) :: rest => by
      rw [entriesOf, Value.fillEntries, d.fill_value, fillEntries_entriesOf whole level rest]

end

/-- A field of a map is the first one of its name. -/
theorem field?_entriesOf {fields : List (String × Document)} {name : String} {d : Document}
    (h : fields.find? (·.1 == name) = some (name, d)) :
    (Value.map (entriesOf fields)).field? name = some d.value := by
  rw [Value.field?]
  dsimp only
  -- The whole map stays as it is while the induction takes its entries away.
  generalize Value.map (entriesOf fields) = whole
  induction fields with
  | nil => cases h
  | cons field fields ih =>
      rw [List.find?_cons] at h
      rw [entriesOf, List.find?_cons]
      cases hname : field.1 == name with
      | true =>
          rw [hname] at h
          obtain rfl := Option.some.inj h
          simp [Document.fill_value]
      | false =>
          rw [hname] at h
          simpa [hname] using ih h

namespace Value

theorem items?_list_text (texts : List String) :
    (Value.list (texts.map .text)).items? = some (texts.map .text) := by
  rw [items?, List.map_map]
  rfl

theorem shown_text (s : String) : (Value.text s).shown = .ok s := rfl

theorem mapM_shown_text (texts : List String) :
    (texts.map Value.text).mapM (·.shown) = .ok texts :=
  mapM_eq_ok_iff.2 (List.forall₂_map_left_iff.2 (List.forall₂_same.2 fun s _ => shown_text s))

end Value

end Yaml

/-! ## Written configurations -/

namespace Config

variable {config : Config} {path : Path}

theorem value_run_bind {ε α β : Type} (x : ExceptT ε Logged α) (f : α → ExceptT ε Logged β) :
    (x >>= f).run.value = x.run.value.bind fun a => (f a).run.value := by
  rw [ExceptT.run_bind, Logged.value_bind]
  cases x.run.value <;> rfl

theorem value_texts {part : Yaml.Value} {field : String} {items : List String}
    (h : part.field? field = some (Yaml.Document.list items).value) :
    (texts (some part) field path).run.value = .ok items := by
  rw [texts, Option.bind_some, h, Yaml.Document.value]
  simp only [Yaml.Value.items?_list_text, Yaml.Value.mapM_shown_text]
  rfl

theorem value_section? {document : Yaml.Value} {field : String}
    {fields : List (String × Yaml.Document)}
    (h : document.field? field = some (Yaml.Document.map fields).value) :
    (section? document field path).value = some (.map (Yaml.entriesOf fields)) := by
  rw [section?, h, Yaml.Document.value]
  rfl

theorem value_run_lift {ε α : Type} (x : Logged α) :
    (liftM x : ExceptT ε Logged α).run.value = .ok x.value := rfl

/-- The configuration comes back, with the directory of the file that it stands in. -/
theorem value_ofDocument_document (h : config.minSeverity ≠ "") :
    (ofDocument (.map (Yaml.entriesOf config.document)) path).run.value =
      .ok { config with directory := some path.parent } := by
  let ignore := Yaml.Value.map (Yaml.entriesOf
    [("variables", .list config.ignoredVariables), ("files", .list config.ignoredFiles)])
  let scan := Yaml.Value.map (Yaml.entriesOf
    [("exclude_dirs", .list config.excludedDirs), ("min_severity", .text config.minSeverity)])
  have hignore : (section? (.map (Yaml.entriesOf config.document)) "ignore" path).value =
      some ignore :=
    value_section? (Yaml.field?_entriesOf rfl)
  have hscan : (section? (.map (Yaml.entriesOf config.document)) "scan" path).value = some scan :=
    value_section? (Yaml.field?_entriesOf rfl)
  have hvariables : (texts (some ignore) "variables" path).run.value = .ok config.ignoredVariables :=
    value_texts (Yaml.field?_entriesOf rfl)
  have hfiles : (texts (some ignore) "files" path).run.value = .ok config.ignoredFiles :=
    value_texts (Yaml.field?_entriesOf rfl)
  have hdirs : (texts (some scan) "exclude_dirs" path).run.value = .ok config.excludedDirs :=
    value_texts (Yaml.field?_entriesOf rfl)
  have hrules : (texts (some (.map (Yaml.entriesOf config.document))) "rules" path).run.value =
      .ok config.ruleFiles :=
    value_texts (Yaml.field?_entriesOf rfl)
  have hlevel : Yaml.Value.truthyOr ((some scan).bind (·.field? "min_severity")) (.text "low") =
      .text config.minSeverity := by
    have hfield : scan.field? "min_severity" = some (.text config.minSeverity) :=
      Yaml.field?_entriesOf (d := .text config.minSeverity) rfl
    have htruthy : (Yaml.Value.text config.minSeverity).isTruthy = true := bne_iff_ne.2 h
    rw [Yaml.Value.truthyOr, Option.bind_some, hfield, Option.filter_some_pos htruthy, Option.getD_some]
  simp only [ofDocument, value_run_bind, value_run_lift, hignore, hscan, hvariables, hfiles, hdirs,
    hrules, hlevel, Yaml.Value.shown_text, Except.bind]
  rfl

end Config

/-! ## Texts of values -/

theorem Binary64.positiveText_ne_empty (mantissa : Nat) (exponent : Int) :
    positiveText mantissa exponent ≠ "" := by
  simp only [positiveText]
  split
  · split <;> simp
  · simp

theorem Binary64.toText_ne_empty (x : Binary64) : x.toText ≠ "" := by
  cases x with
  | nan => decide
  | infinite negative => cases negative <;> decide
  | finite negative mantissa exponent =>
      have htext : (if mantissa = 0 then "0.0" else positiveText mantissa exponent) ≠ "" := by
        split
        · decide
        · exact positiveText_ne_empty mantissa exponent
      rw [toText]
      cases negative with
      | false => exact htext
      | true => simp

namespace Yaml.Value

theorem toString_int_ne_empty (n : Int) : toString n ≠ "" := by
  cases n with
  | ofNat n => exact Nat.repr_ne_empty
  | negSucc n =>
      have hminus : toString (Int.negSucc n) = "-" ++ Nat.repr (n + 1) := rfl
      simp [hminus]

/-- The text of a value that counts as something is not empty. -/
theorem toText_ne_empty {v : Value} (h : v.isTruthy = true) : v.toText ≠ "" := by
  cases v with
  | null => cases h
  | bool b => cases b <;> decide
  | int n => exact toString_int_ne_empty n
  | float x => exact x.toText_ne_empty
  | text s => exact bne_iff_ne.1 h
  | bytes bs => simp [toText, innerText, bytesText]
  | date d =>
      have hdash : toString "-" ≠ "" := by decide
      simp [toText, Date.toText, hdash]
  | timestamp t => simp [toText, Timestamp.toText]
  | list items => simp [toText, innerText]
  | pair a b => simp [toText, innerText]
  | set members =>
      rw [toText, innerText]
      · split <;> simp
      all_goals simp
  | map entries => simp [toText, innerText]
  | around level isMap => cases isMap <;> simp [toText, innerText]

theorem isTruthy_truthyOr {v : Option Value} {default : Value} (h : default.isTruthy = true) :
    (truthyOr v default).isTruthy = true := by
  rw [truthyOr]
  cases hfilter : v.filter isTruthy with
  | none => exact h
  | some found => exact (Option.filter_eq_some_iff.1 hfilter).2

end Yaml.Value

namespace Config

theorem exists_of_value_run_bind {ε α β : Type} {x : ExceptT ε Logged α}
    {f : α → ExceptT ε Logged β} {b : β} (h : (x >>= f).run.value = .ok b) :
    ∃ a, x.run.value = .ok a ∧ (f a).run.value = .ok b := by
  rw [value_run_bind] at h
  exact bind_eq_ok_iff.1 h

/-- A configuration that was read has a least severity. -/
theorem minSeverity_ne_empty {config : Config} {path : Path} {document : Yaml.Value}
    (h : (ofDocument document path).run.value = .ok config) : config.minSeverity ≠ "" := by
  rw [ofDocument] at h
  obtain ⟨ignore, -, h⟩ := exists_of_value_run_bind h
  obtain ⟨scan, -, h⟩ := exists_of_value_run_bind h
  obtain ⟨names, -, h⟩ := exists_of_value_run_bind h
  obtain ⟨files, -, h⟩ := exists_of_value_run_bind h
  obtain ⟨dirs, -, h⟩ := exists_of_value_run_bind h
  obtain ⟨level, hlevel, h⟩ := exists_of_value_run_bind h
  obtain ⟨rules, -, h⟩ := exists_of_value_run_bind h
  obtain rfl := Except.ok.inj h
  change (Yaml.Value.truthyOr (scan.bind (·.field? "min_severity")) (.text "low")).shown =
    .ok level at hlevel
  rw [Yaml.Value.shown] at hlevel
  split at hlevel
  · cases hlevel
  · obtain rfl := Except.ok.inj hlevel
    apply Yaml.Value.toText_ne_empty
    exact Yaml.Value.isTruthy_truthyOr rfl

end Config

end EnvAudit
