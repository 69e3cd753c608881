import EnvAudit.Proofs.FileScan.Facts
import EnvAudit.Proofs.Result
import EnvAudit.RuleFile

/-!
# What rule files come to

A rule file comes to its entries that are in order, and files to those of all of them, unless one of
them breaks.  A file that the system refuses, or whose notation is broken, does not break: it comes to
no rules.
-/

namespace EnvAudit

/-- The errors that are recorded where they arise and go no further. -/
def DocumentError.isRecorded : DocumentError → Bool
  | .file (.fault _ _) | .yaml .malformed => true
  | _ => false

section Documents

variable [Yaml.Library]

/-- Bytes that have no value for another reason than broken notation: they are no text, or a part of the
document stands for no value, or reading gives up. -/
def Defective (bytes : ByteArray) : Prop :=
  ∃ fault, Yaml.Library.read bytes = .error fault ∧ fault ≠ .malformed

/-- Reading the file as a document fails in a way that is not recorded. -/
def BreaksDocument (fs : FileSystem) (file : Path) : Prop :=
  FileSystem.hasNull file = true ∨ ∃ bytes, fs.read file = .ok bytes ∧ Defective bytes

variable {fs : FileSystem} {file : Path} {cause : DocumentError}

omit [Yaml.Library] in
/-- The system refuses a file for a fault, unless its path is none at all. -/
theorem FileSystem.exists_fault_of_read {error : FileError} (h : fs.read file = .error error) :
    FileSystem.hasNull file = true ∨ ∃ fault path, error = .fault fault path := by
  rw [FileSystem.read] at h
  split at h
  · exact .inl ‹_›
  · split at h
    · cases h
    · exact .inr ⟨_, _, (Except.error.inj h).symm⟩
    · exact .inr ⟨_, _, (Except.error.inj h).symm⟩
    · exact .inr ⟨_, _, (Except.error.inj h).symm⟩

theorem readDocument_of_read {bytes : ByteArray} (h : fs.read file = .ok bytes) :
    readDocument fs file = (Yaml.Library.read bytes).mapError .yaml := by
  rw [readDocument, h]
  rfl

theorem readDocument_of_not_read {error : FileError} (h : fs.read file = .error error) :
    readDocument fs file = .error (.file error) := by
  rw [readDocument, h]
  rfl

/-- Exactly where reading breaks, its error is not recorded. -/
theorem breaksDocument_iff :
    BreaksDocument fs file ↔
      ∃ cause, readDocument fs file = .error cause ∧ cause.isRecorded = false := by
  cases hread : fs.read file with
  | error error =>
      rw [readDocument_of_not_read hread]
      constructor
      · rintro (hnull | ⟨bytes, hbytes, -⟩)
        · rw [FileSystem.read, if_pos hnull] at hread
          exact ⟨_, rfl, Except.error.inj hread ▸ rfl⟩
        · cases hread.symm.trans hbytes
      · rintro ⟨cause, hcause, hrecorded⟩
        obtain rfl := Except.error.inj hcause
        rcases FileSystem.exists_fault_of_read hread with hnull | ⟨fault, path, rfl⟩
        · exact .inl hnull
        · cases hrecorded
  | ok bytes =>
      have hnull : FileSystem.hasNull file = false := by
        by_contra hnull
        rw [Bool.not_eq_false] at hnull
        rw [FileSystem.read, if_pos hnull] at hread
        cases hread
      have hbreaks : BreaksDocument fs file ↔ Defective bytes := by
        constructor
        · rintro (h | ⟨other, hother, h⟩)
          · exact absurd (hnull.symm.trans h) Bool.false_ne_true
          · exact Except.ok.inj (hread.symm.trans hother) ▸ h
        · exact fun h => .inr ⟨bytes, hread, h⟩
      rw [hbreaks, readDocument_of_read hread, Defective]
      constructor
      · rintro ⟨fault, hfault, hne⟩
        refine ⟨.yaml fault, by rw [hfault]; rfl, ?_⟩
        cases fault <;> first | rfl | exact absurd rfl hne
      · rintro ⟨cause, hcause, hrecorded⟩
        obtain ⟨fault, hfault, rfl⟩ := mapError_eq_error_iff.1 hcause
        refine ⟨fault, hfault, ?_⟩
        rintro rfl
        cases hrecorded

end Documents

namespace RuleFile

variable [Pattern.Compiler] {fs : FileSystem} {file : Path} {cause : DocumentError}
variable {entry : Yaml.Value} {entries : List Yaml.Value} {rules : List FileRule} {paths : List Path}

/-- An entry that ends the reading of all files: a number that is to be shown is too long, or its
pattern fails for another reason than broken notation. -/
inductive BreaksEntry (entry : Yaml.Value) : Prop
  | number {fault : Yaml.Fault} (h : (parts entry).run = .error fault)
  | pattern {target : RuleTarget} {severity : Severity} {source : String} {ignoreCase : Bool}
      {cause : Pattern.ReadError} (h : (parts entry).run = .ok (.ok (target, severity, source, ignoreCase)))
      (hparse : Pattern.Compiler.compile source ignoreCase = .error cause) (hcause : cause ≠ .malformed)

theorem breaksEntry_iff : BreaksEntry entry ↔ ∃ cause, rule entry = .error cause := by
  constructor
  · rintro (@⟨fault, h⟩ | @⟨target, severity, source, ignoreCase, cause, h, hparse, hcause⟩)
    · exact ⟨.yaml fault, by rw [rule, h]⟩
    · refine ⟨.pattern cause, ?_⟩
      rw [rule, h]
      cases cause <;> first | exact absurd rfl hcause | simp only [hparse]
  · rintro ⟨cause, hcause⟩
    rw [rule] at hcause
    split at hcause
    · exact .number ‹_›
    · cases hcause
    · rename_i hparts
      split at hcause
      · cases hcause
      · cases hcause
      · rename_i hmalformed hparse
        exact .pattern hparts hparse hmalformed

/-- The rule of an entry that is in order. -/
def rule? (entry : Yaml.Value) : Option FileRule :=
  match rule entry with
  | .ok (.ok r) => some r
  | _ => none

/-- Entries come to those of their rules that are in order, unless one of them breaks. -/
theorem value_rulesOf_eq_ok_iff {index : Nat} :
    (rulesOf file index entries).value = .ok rules ↔
      (∀ entry ∈ entries, ¬ BreaksEntry entry) ∧ rules = entries.filterMap rule? := by
  induction entries generalizing index rules with
  | nil =>
      rw [rulesOf, Logged.value_pure, Except.ok.injEq]
      simp [eq_comm]
  | cons entry entries ih =>
      rw [List.forall_mem_cons, breaksEntry_iff, rulesOf, List.filterMap_cons, rule?]
      cases rule entry with
      | error cause => simp
      | ok read =>
          cases read with
          | error fault => simpa using ih
          | ok r =>
              simp only [Logged.value_bind, Logged.value_pure, map_eq_ok_iff, ih]
              simp [eq_comm]

section Files

variable [Yaml.Library]

/-- The entries of a file; one that is no document has none. -/
def entriesAt (fs : FileSystem) (file : Path) : List Yaml.Value :=
  match readDocument fs file with
  | .ok document => (entriesOf file document).1
  | .error _ => []

/-- The rules that a file comes to. -/
def rulesAt (fs : FileSystem) (file : Path) : List FileRule := (entriesAt fs file).filterMap rule?

/-- A file that ends the reading of all rule files. -/
def Breaks (fs : FileSystem) (file : Path) : Prop :=
  BreaksDocument fs file ∨ ∃ entry ∈ entriesAt fs file, BreaksEntry entry

theorem value_load_of_error (h : readDocument fs file = .error cause) :
    (load fs file).value = if cause.isRecorded then .ok [] else .error cause := by
  rw [load, h]
  cases cause with
  | file error => cases error <;> rfl
  | yaml fault => cases fault <;> rfl
  | pattern error => rfl

theorem value_load_eq_ok_iff :
    (load fs file).value = .ok rules ↔ ¬ Breaks fs file ∧ rules = rulesAt fs file := by
  rw [Breaks, breaksDocument_iff, rulesAt, entriesAt]
  cases hread : readDocument fs file with
  | ok document =>
      rw [load, hread, Logged.value_bind, value_rulesOf_eq_ok_iff]
      simp
  | error cause =>
      rw [value_load_of_error hread, eq_comm (a := rules)]
      cases hrecorded : cause.isRecorded
      · simp [hrecorded]
      · simp [hrecorded]

/-- Files come to the rules of each of them, in their order, unless one of them breaks. -/
theorem value_loadAll_eq_ok_iff :
    (loadAll fs paths).value = .ok rules ↔
      (∀ file ∈ paths, ¬ Breaks fs file) ∧ rules = paths.flatMap (rulesAt fs) := by
  induction paths generalizing rules with
  | nil =>
      rw [loadAll, Logged.value_pure, Except.ok.injEq]
      simp [eq_comm]
  | cons file paths ih =>
      rw [List.forall_mem_cons, List.flatMap_cons, loadAll, Logged.value_bind]
      cases hload : (load fs file).value with
      | error cause =>
          have hbreaks : Breaks fs file := by
            by_contra hnot
            cases hload.symm.trans (value_load_eq_ok_iff.2 ⟨hnot, rfl⟩)
          simp [hbreaks]
      | ok here =>
          obtain ⟨hnot, rfl⟩ := value_load_eq_ok_iff.1 hload
          simp only [Logged.value_bind, Logged.value_pure, map_eq_ok_iff, ih]
          simp [hnot, eq_comm]

end Files

end RuleFile

end EnvAudit
