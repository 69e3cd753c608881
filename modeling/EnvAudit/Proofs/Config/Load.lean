import EnvAudit.Config.File
import EnvAudit.Proofs.RuleFile

/-!
# Where settings come from

Settings are taken over from the first configuration file that there is, if it holds a configuration,
and are otherwise left as they are.  Nothing but a file that breaks, a path that cannot be resolved, or a
place of which the system does not tell whether something stands there, keeps them from being read.
-/

namespace EnvAudit.Settings

variable {fs : FileSystem} {file path project cwd : Path} {settings settings' : Settings}
  {source? : Option Path}

/-! ## The first file that there is -/

theorem firstExisting_eq_some_iff {files : List Path} :
    firstExisting fs files = .ok (some file) ↔
      ∃ front rest, files = front ++ file :: rest ∧ fs.exists? file = .ok true ∧
        ∀ earlier ∈ front, fs.exists? earlier = .ok false := by
  induction files with
  | nil => simp [firstExisting]
  | cons first files ih =>
      rw [firstExisting]
      constructor
      · intro h
        obtain ⟨there, hfirst, h⟩ := bind_eq_ok_iff.1 h
        cases there with
        | true =>
            obtain rfl := Option.some.inj (Except.ok.inj h)
            exact ⟨[], files, rfl, hfirst, by simp⟩
        | false =>
            obtain ⟨front, rest, rfl, hfile, hfront⟩ := ih.1 h
            exact ⟨first :: front, rest, rfl, hfile, List.forall_mem_cons.2 ⟨hfirst, hfront⟩⟩
      · rintro ⟨_ | ⟨earlier, front⟩, rest, heq, hfile, hfront⟩
        · obtain ⟨rfl, rfl⟩ := List.cons.inj heq
          rw [hfile]
          rfl
        · obtain ⟨rfl, rfl⟩ := List.cons.inj heq
          obtain ⟨hfirst, hfront⟩ := List.forall_mem_cons.1 hfront
          rw [hfirst]
          exact ih.2 ⟨front, rest, rfl, hfile, hfront⟩
/-! ## What it holds -/

variable [Yaml.Library]

/-- A configuration file that keeps the settings from being read: it breaks as a document, or a number
in it is too long to be shown. -/
inductive BreaksConfig (fs : FileSystem) (file : Path) : Prop
  | document (h : BreaksDocument fs file)
  | number {document : Yaml.Value} {fault : Yaml.Fault} (hread : readDocument fs file = .ok document)
      (hmap : document.isMap = true)
      (hfault : (Config.ofDocument document file).run.value = .error fault)

/-- The configuration that a file holds. -/
def configIn? (fs : FileSystem) (file : Path) : Option Config :=
  match readDocument fs file with
  | .ok document =>
    if document.isMap then (Config.ofDocument document file).run.value.toOption else none
  | .error _ => none

theorem value_readFile_of_error {cause : DocumentError} (h : readDocument fs file = .error cause) :
    (readFile fs file).value = if cause.isRecorded then .ok none else .error cause := by
  rw [readFile, h]
  cases cause with
  | file error => cases error <;> rfl
  | yaml fault => cases fault <;> rfl
  | pattern error => rfl

theorem value_readFile_of_ok {document : Yaml.Value} (h : readDocument fs file = .ok document) :
    (readFile fs file).value =
      if document.isMap then ((Config.ofDocument document file).run.value.mapError .yaml).map some
      else .ok none := by
  rw [readFile, h]
  cases hmap : document.isMap with
  | false =>
      simp only [hmap]
      cases document.isTruthy <;> rfl
  | true =>
      simp only [hmap, if_true, Logged.value_bind]
      cases (Config.ofDocument document file).run.value <;> rfl

theorem breaksConfig_iff :
    BreaksConfig fs file ↔ ∃ cause, (readFile fs file).value = .error cause := by
  cases hread : readDocument fs file with
  | error cause =>
      rw [value_readFile_of_error hread]
      have hdocument : BreaksConfig fs file ↔ BreaksDocument fs file := by
        constructor
        · rintro (h | ⟨hother, -, -⟩)
          · exact h
          · cases hread.symm.trans hother
        · exact .document
      rw [hdocument, breaksDocument_iff, hread]
      cases hrecorded : cause.isRecorded <;> simp [hrecorded]
  | ok document =>
      rw [value_readFile_of_ok hread]
      have hdocument : ¬ BreaksDocument fs file := by
        rw [breaksDocument_iff, hread]
        simp
      constructor
      · rintro (h | @⟨other, fault, hother, hmap, hfault⟩)
        · exact absurd h hdocument
        · obtain rfl := Except.ok.inj (hread.symm.trans hother)
          exact ⟨.yaml fault, by rw [hmap, if_pos rfl, hfault]; rfl⟩
      · rintro ⟨cause, hcause⟩
        split at hcause
        · cases hvalue : (Config.ofDocument document file).run.value with
          | ok config =>
              rw [hvalue] at hcause
              cases hcause
          | error fault => exact .number hread ‹_› hvalue
        · cases hcause

theorem value_readFile_eq_ok_iff {found : Option Config} :
    (readFile fs file).value = .ok found ↔ ¬ BreaksConfig fs file ∧ found = configIn? fs file := by
  have hfound : ∀ found, (readFile fs file).value = .ok found → found = configIn? fs file := by
    intro found h
    rw [configIn?]
    cases hread : readDocument fs file with
    | error cause =>
        rw [value_readFile_of_error hread] at h
        split at h
        · exact (Except.ok.inj h).symm
        · cases h
    | ok document =>
        rw [value_readFile_of_ok hread] at h
        simp only
        split at h
        · rw [if_pos ‹_›]
          cases hvalue : (Config.ofDocument document file).run.value with
          | ok config =>
              rw [hvalue] at h
              exact (Except.ok.inj h).symm
          | error fault =>
              rw [hvalue] at h
              cases h
        · rw [if_neg ‹_›]
          exact (Except.ok.inj h).symm
  rw [breaksConfig_iff]
  constructor
  · intro h
    exact ⟨by simp [h], hfound found h⟩
  · rintro ⟨hnot, rfl⟩
    cases h : (readFile fs file).value with
    | ok found => rw [hfound found h]
    | error cause => exact absurd ⟨cause, h⟩ hnot

/-- The settings with what is found for a project, in the file if there is one. -/
def takeOver (settings : Settings) (fs : FileSystem) (project : Path) (source? : Option Path) : Settings :=
  match source?.bind fun file => (configIn? fs file).map (file, ·) with
  | some (file, config) => { config, loadedFrom := some file, base := some project }
  | none => { settings with base := some project }

/-- Whether there is a configuration in a file. -/
def isConfigured (fs : FileSystem) (source? : Option Path) : Bool := (source?.bind (configIn? fs)).isSome

theorem value_load (hproject : projectOf fs path = .ok project)
    (hcwd : fs.resolve ⟨.here, []⟩ = .ok cwd)
    (hsource : firstExisting fs (candidates project cwd) = .ok source?)
    (hfile : ∀ file ∈ source?, ¬ BreaksConfig fs file) :
    (load settings fs path).value =
      (settings.takeOver fs project source?, .ok (isConfigured fs source?)) := by
  simp only [load, hproject, hcwd, hsource]
  rw [takeOver, isConfigured]
  cases source? with
  | none => rfl
  | some file =>
      have hread := value_readFile_eq_ok_iff.2 ⟨hfile file rfl, rfl⟩
      cases hconfig : configIn? fs file <;> simp [hread, hconfig]

/-- Settings are read exactly if the path and the working directory can be resolved, it can be told which
configuration file is the first, and this one, if there is one, does not break. -/
theorem value_load_eq_ok_iff :
    (∃ found, (load settings fs path).value = (settings', .ok found)) ↔
      ∃ project cwd source?, projectOf fs path = .ok project ∧ fs.resolve ⟨.here, []⟩ = .ok cwd ∧
        firstExisting fs (candidates project cwd) = .ok source? ∧
          (∀ file ∈ source?, ¬ BreaksConfig fs file) ∧
            settings' = settings.takeOver fs project source? := by
  constructor
  · rintro ⟨found, h⟩
    cases hproject : projectOf fs path with
    | error cause =>
        rw [load, hproject] at h
        cases h
    | ok project =>
        cases hcwd : fs.resolve ⟨.here, []⟩ with
        | error cause =>
            simp only [load, hproject, hcwd] at h
            cases h
        | ok cwd =>
            cases hsource : firstExisting fs (candidates project cwd) with
            | error cause =>
                simp only [load, hproject, hcwd, hsource] at h
                cases h
            | ok source? =>
                have hfile : ∀ file ∈ source?, ¬ BreaksConfig fs file := by
                  rintro file rfl hbreaks
                  obtain ⟨cause, hread⟩ := breaksConfig_iff.1 hbreaks
                  simp [load, hproject, hcwd, hsource, hread] at h
                refine ⟨project, cwd, source?, rfl, rfl, hsource, hfile, ?_⟩
                rw [value_load hproject hcwd hsource hfile] at h
                exact (congrArg Prod.fst h).symm
  · rintro ⟨project, cwd, source?, hproject, hcwd, hsource, hfile, rfl⟩
    exact ⟨_, value_load hproject hcwd hsource hfile⟩

end EnvAudit.Settings
