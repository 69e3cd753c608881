import EnvAudit.Proofs.Config.Load

/-!
# Loading replaces all or nothing

Loading takes over the configuration of a file as a whole, or it leaves the configuration and the file that
it stands in as they were.  What is taken over depends on the path and the bytes of the file alone.
-/

namespace EnvAudit.Settings

variable [Yaml.Library]
variable {fs : FileSystem} {file path project cwd : Path} {settings : Settings} {config : Config}

/-- The configuration that the bytes of a file hold. -/
def configOf? (file : Path) (bytes : ByteArray) : Option Config :=
  match Yaml.Library.read bytes with
  | .ok document =>
    if document.isMap then (Config.ofDocument document file).run.value.toOption else none
  | .error _ => none

/-- Nothing but the bytes of a file matters to the configuration that it holds. -/
theorem configIn?_eq_bind (fs : FileSystem) (file : Path) :
    configIn? fs file = (fs.read file).toOption.bind (configOf? file) := by
  rw [configIn?]
  cases hread : fs.read file with
  | error cause =>
      rw [readDocument_of_not_read hread]
      rfl
  | ok bytes =>
      have hbytes : (Except.ok bytes : Except FileError ByteArray).toOption = some bytes := rfl
      rw [readDocument_of_read hread, hbytes, Option.bind_some, configOf?]
      cases Yaml.Library.read bytes <;> rfl

/-- The file is the first of the candidates for a path that is there. -/
def IsSource (fs : FileSystem) (path file : Path) : Prop :=
  ∃ project cwd front rest, projectOf fs path = .ok project ∧ fs.resolve ⟨.here, []⟩ = .ok cwd ∧
    candidates project cwd = front ++ file :: rest ∧ fs.exists? file = .ok true ∧
      ∀ earlier ∈ front, fs.exists? earlier = .ok false

omit [Yaml.Library] in
theorem isSource_iff : IsSource fs path file ↔
    ∃ project cwd, projectOf fs path = .ok project ∧ fs.resolve ⟨.here, []⟩ = .ok cwd ∧
      firstExisting fs (candidates project cwd) = .ok (some file) := by
  simp only [firstExisting_eq_some_iff]
  constructor
  · rintro ⟨project, cwd, front, rest, hproject, hcwd, hfile⟩
    exact ⟨project, cwd, hproject, hcwd, front, rest, hfile⟩
  · rintro ⟨project, cwd, hproject, hcwd, front, rest, hfile⟩
    exact ⟨project, cwd, front, rest, hproject, hcwd, hfile⟩

/-- Loading ends in one of two ways. -/
inductive Loading (settings : Settings) (fs : FileSystem) (path : Path) :
    Settings × Except DocumentError Bool → Prop
  /-- The configuration stays, and so does the file that it stands in. -/
  | kept {after : Settings} {result : Except DocumentError Bool} (hresult : result ≠ .ok true)
      (hconfig : after.config = settings.config) (hfile : after.loadedFrom = settings.loadedFrom) :
      Loading settings fs path (after, result)
  /-- Both are replaced. -/
  | replaced {file : Path} {config : Config} (base : Option Path) (hfile : IsSource fs path file)
      (hconfig : configIn? fs file = some config) :
      Loading settings fs path ({ config, loadedFrom := some file, base }, .ok true)

theorem loading (settings : Settings) (fs : FileSystem) (path : Path) :
    Loading settings fs path (load settings fs path).value := by
  cases hproject : projectOf fs path with
  | error cause =>
      rw [load, hproject]
      exact .kept (by simp) rfl rfl
  | ok project =>
      cases hcwd : fs.resolve ⟨.here, []⟩ with
      | error cause =>
          simp only [load, hproject, hcwd]
          exact .kept (by simp) rfl rfl
      | ok cwd =>
          cases hsource : firstExisting fs (candidates project cwd) with
          | error cause =>
              simp only [load, hproject, hcwd, hsource]
              exact .kept (by simp) rfl rfl
          | ok source? =>
              cases source? with
              | none =>
                  simp only [load, hproject, hcwd, hsource]
                  exact .kept (by simp) rfl rfl
              | some file =>
                  have hfile := isSource_iff.2 ⟨project, cwd, hproject, hcwd, hsource⟩
                  cases hread : (readFile fs file).value with
                  | error cause =>
                      simp only [load, hproject, hcwd, hsource, Logged.value_bind, hread]
                      exact .kept (by simp) rfl rfl
                  | ok found =>
                      obtain ⟨-, rfl⟩ := value_readFile_eq_ok_iff.1 hread
                      cases hconfig : configIn? fs file with
                      | none =>
                          simp only [load, hproject, hcwd, hsource, Logged.value_bind, hread, hconfig]
                          exact .kept (by simp) rfl rfl
                      | some config =>
                          simp only [load, hproject, hcwd, hsource, Logged.value_bind, hread, hconfig]
                          exact .replaced _ hfile hconfig

/-- Loading that finds no configuration, or fails, leaves the configuration and its file as they were.
Otherwise the first file that there is has been read, and the configuration is the one in its bytes. -/
theorem load_keeps_or_replaces (settings : Settings) (fs : FileSystem) (path : Path) :
    ((load settings fs path).value.2 ≠ .ok true →
      (load settings fs path).value.1.config = settings.config ∧
        (load settings fs path).value.1.loadedFrom = settings.loadedFrom) ∧
      ((load settings fs path).value.2 = .ok true → ∃ file bytes, IsSource fs path file ∧
        (load settings fs path).value.1.loadedFrom = some file ∧ fs.read file = .ok bytes ∧
          configOf? file bytes = some (load settings fs path).value.1.config) := by
  have h := loading settings fs path
  generalize (load settings fs path).value = loaded at h ⊢
  cases h with
  | kept hresult hconfig hfile => exact ⟨fun _ => ⟨hconfig, hfile⟩, fun htrue => absurd htrue hresult⟩
  | @replaced file config base hfile hconfig =>
      refine ⟨fun hother => absurd rfl hother, fun _ => ?_⟩
      rw [configIn?_eq_bind] at hconfig
      obtain ⟨bytes, hbytes, hconfig⟩ := Option.bind_eq_some_iff.1 hconfig
      cases hread : fs.read file with
      | error cause =>
          rw [hread] at hbytes
          cases hbytes
      | ok found =>
          rw [hread] at hbytes
          obtain rfl := Option.some.inj hbytes
          exact ⟨file, found, hfile, rfl, hread, hconfig⟩

end EnvAudit.Settings
