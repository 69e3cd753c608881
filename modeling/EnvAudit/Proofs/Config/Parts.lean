import EnvAudit.Libraries
import EnvAudit.Proofs.Config.Replaced
import EnvAudit.Proofs.Config.Saved
import EnvAudit.Proofs.Yaml.Shown

/-!
# Parts of a configuration

Each part of a configuration is read from the value at its own keys.  Whatever stands elsewhere in the
document, and in whatever shape, does not matter to it, and without a value of the right shape the part
is that of the default configuration.
-/

namespace EnvAudit

namespace Yaml.Value

/-- The value to which keys lead, one after the other. -/
def at? (v : Value) : List String → Option Value
  | [] => some v
  | key :: keys => (v.field? key).bind (·.at? keys)

theorem at?_singleton (v : Value) (key : String) : v.at? [key] = v.field? key :=
  Option.bind_fun_some _

end Yaml.Value

namespace Config

open Yaml (Value)

/-- What a document can say about a configuration. -/
inductive Part
  | ignoredVariables
  | ignoredFiles
  | excludedDirs
  | minSeverity
  | ruleFiles
deriving DecidableEq

namespace Part

/-- Where a part stands in a document. -/
def keys : Part → List String
  | ignoredVariables => ["ignore", "variables"]
  | ignoredFiles => ["ignore", "files"]
  | excludedDirs => ["scan", "exclude_dirs"]
  | minSeverity => ["scan", "min_severity"]
  | ruleFiles => ["rules"]

/-- The part is a list of texts, and the least severity a single one. -/
abbrev Content : Part → Type
  | minSeverity => String
  | ignoredVariables | ignoredFiles | excludedDirs | ruleFiles => List String

def content : (part : Part) → Config → part.Content
  | ignoredVariables, config => config.ignoredVariables
  | ignoredFiles, config => config.ignoredFiles
  | excludedDirs, config => config.excludedDirs
  | minSeverity, config => config.minSeverity
  | ruleFiles, config => config.ruleFiles

/-- The values that are shown as texts when the part is read. -/
def shownOf : Part → Option Value → List Value
  | minSeverity, v => (v.filter Value.isTruthy).toList
  | ignoredVariables, v | ignoredFiles, v | excludedDirs, v | ruleFiles, v => Value.itemsOf v

/-- What the value at its keys makes of a part. -/
def read : (part : Part) → Option Value → part.Content
  | minSeverity, v => (Value.truthyOr v (.text "low")).toText
  | ignoredVariables, v | ignoredFiles, v | excludedDirs, v | ruleFiles, v =>
    (Value.itemsOf v).map Value.toText

/-- The part is left out or has the wrong shape, or the section has in which it stands. -/
inductive Misshapen (document : Value) : Part → Prop
  | section {part : Part} {name key : String} (hkeys : part.keys = [name, key])
    (hshape : ∀ v ∈ document.field? name, v.isMap = false) : Misshapen document part
  | list {part : Part} (hpart : part ≠ minSeverity)
    (hshape : ∀ v ∈ document.at? part.keys, v.items? = none) : Misshapen document part
  | severity (hshape : ∀ v ∈ document.at? minSeverity.keys, v.isTruthy = false) :
    Misshapen document minSeverity

variable {document : Value} {part : Part} {v : Option Value}

/-- Without a value that is shown the part is that of the default configuration. -/
theorem read_eq_default (h : part.shownOf v = []) : part.read v = part.content {} := by
  cases part with
  | minSeverity =>
      have hnone : v.filter Value.isTruthy = none := Option.toList_eq_nil_iff.1 h
      rw [read, Value.truthyOr, hnone]
      rfl
  | ignoredVariables | ignoredFiles | excludedDirs | ruleFiles => exact congrArg (List.map Value.toText) h

theorem at?_eq_none_of_section {name key : String} (h : ∀ v ∈ document.field? name, v.isMap = false) :
    document.at? [name, key] = none := by
  rw [Value.at?, Option.bind_eq_none_iff]
  intro v hv
  rw [Value.at?_singleton, Value.field?_of_not_isMap (h v hv)]

theorem Misshapen.shownOf_eq_nil (h : Misshapen document part) :
    part.shownOf (document.at? part.keys) = [] := by
  cases h with
  | «section» hkeys hshape =>
      rw [hkeys, at?_eq_none_of_section hshape]
      cases part <;> rfl
  | list hpart hshape =>
      have hnone : (document.at? part.keys).bind Value.items? = none :=
        Option.bind_eq_none_iff.2 hshape
      cases part with
      | minSeverity => exact absurd rfl hpart
      | ignoredVariables | ignoredFiles | excludedDirs | ruleFiles =>
          rw [shownOf, Value.itemsOf, hnone]
          rfl
  | severity hshape =>
      rw [shownOf, Option.toList_eq_nil_iff, Option.filter_eq_none_iff]
      simpa using hshape

end Part

/-! ## Reading the parts -/

variable {document : Value} {path : Path} {v : Option Value}

/-- A section is there if it is a map. -/
theorem value_section?_eq_filter (name : String) :
    (section? document name path).value = (document.field? name).filter Value.isMap := by
  rw [section?]
  split
  · rename_i hnone
    rw [hnone]
    rfl
  · rename_i hnull
    rw [hnull]
    rfl
  · rename_i v _ hv
    rw [hv]
    cases hmap : v.isMap with
    | true =>
        rw [if_pos rfl, Logged.value_pure, Option.filter_some_pos hmap]
    | false =>
        rw [if_neg Bool.false_ne_true, Logged.value_bind, Logged.value_pure,
          Option.filter_some_neg (by simp [hmap])]

/-- Nothing is found in a section that is no map. -/
theorem bind_field?_section (name key : String) :
    ((document.field? name).filter Value.isMap).bind (·.field? key) = document.at? [name, key] := by
  rw [Value.at?]
  cases hsection : document.field? name with
  | none => rfl
  | some v =>
      cases hmap : v.isMap with
      | true => rw [Option.filter_some_pos hmap, Option.bind_some, Option.bind_some, Value.at?_singleton]
      | false =>
          rw [Option.filter_some_neg (by simp [hmap]), Option.bind_some, Value.at?_singleton,
            Value.field?_of_not_isMap hmap]
          rfl

theorem value_texts_eq_map {part : Option Value} {key : String} (hv : part.bind (·.field? key) = v)
    (h : ∀ item ∈ Value.itemsOf v, item.HasText) :
    (texts part key path).run.value = .ok ((Value.itemsOf v).map Value.toText) := by
  rw [texts, hv]
  split
  · rfl
  · rfl
  · rename_i v _
    rw [Value.itemsOf_some] at h ⊢
    cases hitems : v.items? with
    | none => rfl
    | some items =>
        rw [hitems, Option.getD_some] at h
        exact Value.mapM_shown h

theorem shown_truthyOr_low (h : ∀ found ∈ Part.minSeverity.shownOf v, found.HasText) :
    (Value.truthyOr v (.text "low")).shown = .ok (Part.minSeverity.read v) := by
  rw [Part.read, Value.truthyOr]
  cases hfound : v.filter Value.isTruthy with
  | none => rfl
  | some found => exact (h found (by rw [Part.shownOf, hfound]; exact List.mem_singleton_self _)).shown_eq

/-- A document of which all values can be shown that are to be shown is read part by part. -/
theorem exists_value_ofDocument
    (h : ∀ part : Part, ∀ v ∈ part.shownOf (document.at? part.keys), v.HasText) (path : Path) :
    ∃ config, (ofDocument document path).run.value = .ok config ∧
      ∀ part : Part, part.content config = part.read (document.at? part.keys) := by
  have hlist (name key : String) (hitems : ∀ item ∈ Value.itemsOf (document.at? [name, key]), item.HasText) :
      (texts ((document.field? name).filter Value.isMap) key path).run.value =
        .ok ((Value.itemsOf (document.at? [name, key])).map Value.toText) :=
    value_texts_eq_map (bind_field?_section name key) hitems
  have hvariables := hlist "ignore" "variables" (h .ignoredVariables)
  have hfiles := hlist "ignore" "files" (h .ignoredFiles)
  have hdirs := hlist "scan" "exclude_dirs" (h .excludedDirs)
  have hseverity := shown_truthyOr_low (h .minSeverity)
  have hrules : (texts (some document) "rules" path).run.value =
      .ok ((Value.itemsOf (document.at? ["rules"])).map Value.toText) :=
    value_texts_eq_map (Value.at?_singleton document "rules").symm (h .ruleFiles)
  refine ⟨{ ignoredVariables := Part.ignoredVariables.read (document.at? Part.ignoredVariables.keys)
            ignoredFiles := Part.ignoredFiles.read (document.at? Part.ignoredFiles.keys)
            excludedDirs := Part.excludedDirs.read (document.at? Part.excludedDirs.keys)
            minSeverity := Part.minSeverity.read (document.at? Part.minSeverity.keys)
            ruleFiles := Part.ruleFiles.read (document.at? Part.ruleFiles.keys)
            directory := some path.parent }, ?_, ?_⟩
  · simp only [ofDocument, value_run_bind, value_run_lift, value_section?_eq_filter, hvariables, hfiles,
      hdirs, bind_field?_section, Except.bind]
    rw [show document.at? ["scan", "min_severity"] = document.at? Part.minSeverity.keys from rfl,
      hseverity]
    simp only [hrules]
    rfl
  · intro part
    cases part <;> rfl

end Config

namespace Settings

open Config (Part)
open Yaml (Value)

section Loading

variable [Yaml.Library]
variable {fs fs' : FileSystem} {path path' file : Path} {document document' : Value}

/-- The configuration file for a path holds a map, and what is to be shown of it can be shown. -/
structure Finds (fs : FileSystem) (path : Path) (document : Value) : Prop where
  source : ∃ file, IsSource fs path file ∧ readDocument fs file = .ok document
  isMap : document.isMap = true
  hasTexts : ∀ part : Part, ∀ v ∈ part.shownOf (document.at? part.keys), v.HasText

/-- The configuration that loading for a path leaves in use. -/
def configFor (settings : Settings) (fs : FileSystem) (path : Path) : Config :=
  (load settings fs path).value.1.config

/-- What a configuration file holds is loaded part by part. -/
theorem Finds.loaded (h : Finds fs path document) (settings : Settings) :
    (load settings fs path).value.2 = .ok true ∧
      ∀ part : Part, part.content (settings.configFor fs path) = part.read (document.at? part.keys) := by
  obtain ⟨file, hfile, hread⟩ := h.source
  obtain ⟨project, cwd, hproject, hcwd, hsource⟩ := isSource_iff.1 hfile
  obtain ⟨config, hconfig, hparts⟩ := Config.exists_value_ofDocument h.hasTexts file
  have hvalue : (readFile fs file).value = .ok (some config) := by
    rw [value_readFile_of_ok hread, if_pos h.isMap, hconfig]
    rfl
  obtain ⟨hnot, hholds⟩ := value_readFile_eq_ok_iff.1 hvalue
  have hload : (load settings fs path).value =
      (settings.takeOver fs project (some file), .ok (isConfigured fs (some file))) := by
    refine value_load hproject hcwd hsource fun other hother => ?_
    obtain rfl := Option.some.inj hother
    exact hnot
  rw [isConfigured, takeOver, Option.bind_some, Option.bind_some, ← hholds] at hload
  rw [configFor, hload]
  exact ⟨rfl, hparts⟩

/-- Loading a map succeeds whatever the shape of its parts.  A part that is left out or misshapen is that
of the default configuration, and two documents that agree at the keys of a part agree on this part,
wherever they are found and whatever else they hold. -/
theorem parts_apart (h : Finds fs path document) (settings : Settings) :
    (load settings fs path).value.2 = .ok true ∧ ∀ part : Part,
      part.content (settings.configFor fs path) = part.read (document.at? part.keys) ∧
      (part.Misshapen document →
        part.content (settings.configFor fs path) = part.content {}) ∧
      ∀ settings' fs' path' document', Finds fs' path' document' →
        document.at? part.keys = document'.at? part.keys →
          part.content (settings.configFor fs path) =
            part.content (configFor settings' fs' path') := by
  obtain ⟨htrue, hparts⟩ := h.loaded settings
  refine ⟨htrue, fun part => ⟨hparts part, fun hshape => ?_, ?_⟩⟩
  · rw [hparts part]
    exact Part.read_eq_default hshape.shownOf_eq_nil
  · intro settings' fs' path' document' h' hsame
    rw [hparts part, (h'.loaded settings').2 part, hsame]

/-- A directory with a configuration file that holds the given fields. -/
def fieldFiles (fields : List (String × Yaml.Document)) : FileSystem where
  root := .dir [(".env-guardian.yaml", .file (Yaml.Library.write fields).toUTF8)]

/-- A list in place of a section, and a text in place of a list. -/
def misshapenFields : List (String × Yaml.Document) :=
  [("ignore", .list ["API_KEY"]), ("scan", .map [("exclude_dirs", .text "out"), ("min_severity", .text "high")]),
    ("rules", .list ["a.yaml", "b.yaml"])]

def orderlyFields : List (String × Yaml.Document) :=
  [("rules", .list ["a.yaml", "b.yaml"]), ("ignore", .map [("variables", .list ["API_KEY"])])]

theorem finds_fieldFiles {fields : List (String × Yaml.Document)} (hback : Yaml.ReadsBack fields)
    (hproject : projectOf (fieldFiles fields) ⟨.here, []⟩ = .ok ⟨.slash, []⟩)
    (hcwd : (fieldFiles fields).resolve ⟨.here, []⟩ = .ok ⟨.slash, []⟩)
    (hsource : firstExisting (fieldFiles fields) (candidates ⟨.slash, []⟩ ⟨.slash, []⟩) =
      .ok (some ⟨.slash, [".env-guardian.yaml"]⟩))
    (hbytes : (fieldFiles fields).bytes? ⟨.slash, [".env-guardian.yaml"]⟩ =
      some (Yaml.Library.write fields).toUTF8)
    (htexts : ∀ part : Part, ∀ v ∈ part.shownOf ((Value.map (Yaml.entriesOf fields)).at? part.keys),
      v.HasText) :
    Finds (fieldFiles fields) ⟨.here, []⟩ (.map (Yaml.entriesOf fields)) where
  source := ⟨⟨.slash, [".env-guardian.yaml"]⟩, isSource_iff.2 ⟨_, _, hproject, hcwd, hsource⟩,
    readDocument_of_bytes? hback hbytes⟩
  isMap := rfl
  hasTexts := htexts

end Loading

open scoped Libraries in
theorem parts_apart_misshapenFields :
    Finds (fieldFiles misshapenFields) ⟨.here, []⟩ (.map (Yaml.entriesOf misshapenFields)) ∧
      Finds (fieldFiles orderlyFields) ⟨.here, []⟩ (.map (Yaml.entriesOf orderlyFields)) ∧
        (configFor {} (fieldFiles misshapenFields) ⟨.here, []⟩).ignoredVariables = [] ∧
          (configFor {} (fieldFiles misshapenFields) ⟨.here, []⟩).ruleFiles =
            (configFor {} (fieldFiles orderlyFields) ⟨.here, []⟩).ruleFiles := by
  have hmisshapen : Finds (fieldFiles misshapenFields) ⟨.here, []⟩
      (.map (Yaml.entriesOf misshapenFields)) :=
    finds_fieldFiles (by decide +kernel) (by decide +kernel) (by decide +kernel) (by decide +kernel)
      (by decide +kernel) (by rintro (_ | _) <;> decide)
  have horderly : Finds (fieldFiles orderlyFields) ⟨.here, []⟩ (.map (Yaml.entriesOf orderlyFields)) :=
    finds_fieldFiles (by decide +kernel) (by decide +kernel) (by decide +kernel) (by decide +kernel)
      (by decide +kernel) (by rintro (_ | _) <;> decide)
  obtain ⟨-, hparts⟩ := parts_apart hmisshapen {}
  have hsection : Part.ignoredVariables.Misshapen (.map (Yaml.entriesOf misshapenFields)) :=
    .section rfl (by decide)
  exact ⟨hmisshapen, horderly, (hparts .ignoredVariables).2.1 hsection,
    (hparts .ruleFiles).2.2 {} _ _ _ horderly rfl⟩

end Settings

end EnvAudit
