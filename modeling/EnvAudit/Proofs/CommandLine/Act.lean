import EnvAudit.CommandLine.Session
import EnvAudit.Proofs.Result
import EnvAudit.Proofs.Terminal.Printable

/-!
# What actions do to files

A command that follows another one sees nothing of it but the files that it left.  An action is
therefore described by its result and the files after it, whatever was printed or recorded before.
-/

namespace EnvAudit.CommandLine.Act

variable {α β : Type} {fs : FileSystem} {P Q : Except Failure α → FileSystem → Prop}
variable {x : Act α}

/-- Begun with the files, an action ends with a result and files for which `Q` holds. -/
def Gives (fs : FileSystem) (x : Act α) (Q : Except Failure α → FileSystem → Prop) : Prop :=
  ∀ s : Session, s.fs = fs → Q (x.run.run s).1 (x.run.run s).2.fs

/-- An action that leaves the files as they are; `R` holds for what it returns. -/
abbrev Reads (fs : FileSystem) (x : Act α) (R : α → Prop) : Prop :=
  Gives fs x fun result fs' => fs' = fs ∧ ∀ a, result = .ok a → R a

theorem Gives.weaken (h : Gives fs x P) (hPQ : ∀ result fs', P result fs' → Q result fs') :
    Gives fs x Q :=
  fun s hs => hPQ _ _ (h s hs)

/-- An action that leaves the files as they are and returns a value. -/
abbrev Returns (fs : FileSystem) (x : Act α) (a : α) : Prop :=
  Gives fs x fun result fs' => result = .ok a ∧ fs' = fs

/-- An action that leaves the files as they are and ends with a certain result. -/
abbrev Yields (fs : FileSystem) (x : Act α) (result : Except Failure α) : Prop :=
  Gives fs x fun r fs' => r = result ∧ fs' = fs

/-! ## Steps -/

theorem gives_pure {a : α} (h : Q (.ok a) fs) : Gives fs (pure a) Q := by
  intro s hs
  subst hs
  exact h

theorem gives_throw {cause : Failure} (h : Q (.error cause) fs) : Gives fs (throw cause) Q := by
  intro s hs
  subst hs
  exact h

theorem run_bind (x : Act α) (f : α → Act β) (s : Session) :
    (x >>= f).run.run s =
      match x.run.run s with
      | (.ok a, s') => (f a).run.run s'
      | (.error cause, s') => (.error cause, s') := by
  rw [ExceptT.run_bind, StateT.run_bind]
  change (match x.run.run s with | (result, s') => _) = _
  obtain ⟨_ | _, _⟩ := x.run.run s <;> rfl

theorem run_files_bind {β : Type} (f : FileSystem → Act β) (s : Session) :
    (files >>= f).run.run s = (f s.fs).run.run s := rfl

theorem run_logged_bind {α β : Type} (x : Logged α) (f : α → Act β) (s : Session) :
    (logged x >>= f).run.run s = (f x.value).run.run { s with log := s.log ++ x.log } := rfl

theorem run_document_bind {α β : Type} (x : Except DocumentError α) (f : α → Act β) (s : Session) :
    (document x >>= f).run.run s =
      match x with
      | .ok a => (f a).run.run s
      | .error cause => (.error (.document cause), s) := by
  cases x <;> rfl

/-- One action after another. -/
theorem Gives.bind {f : α → Act β} {Q : Except Failure β → FileSystem → Prop} (h : Gives fs x P)
    (hok : ∀ a fs', P (.ok a) fs' → Gives fs' (f a) Q)
    (herror : ∀ cause fs', P (.error cause) fs' → Q (.error cause) fs') :
    Gives fs (x >>= f) Q := by
  intro s hs
  have hx := h s hs
  rw [run_bind]
  generalize x.run.run s = ending at hx
  obtain ⟨result, s'⟩ := ending
  cases result with
  | ok a => exact hok a s'.fs hx s' rfl
  | error cause => exact herror cause s'.fs hx

theorem Reads.bind {f : α → Act β} {R : α → Prop} {Q : Except Failure β → FileSystem → Prop}
    (h : Reads fs x R) (hok : ∀ a, R a → Gives fs (f a) Q)
    (herror : ∀ cause, Q (.error cause) fs) : Gives fs (x >>= f) Q := by
  refine Gives.bind h ?_ ?_
  · rintro a fs' ⟨rfl, ha⟩
    exact hok a (ha a rfl)
  · rintro cause fs' ⟨rfl, -⟩
    exact herror cause

theorem Reads.seq {f : α → Act β} {R : α → Prop} {R' : β → Prop} (h : Reads fs x R)
    (hf : ∀ a, R a → Reads fs (f a) R') : Reads fs (x >>= f) R' :=
  h.bind hf fun _ => ⟨rfl, nofun⟩

theorem Returns.bind {f : α → Act β} {a : α} {Q : Except Failure β → FileSystem → Prop}
    (h : Returns fs x a) (hf : Gives fs (f a) Q) : Gives fs (x >>= f) Q := by
  refine Gives.bind h ?_ ?_
  · rintro _ _ ⟨heq, rfl⟩
    obtain rfl := Except.ok.inj heq
    exact hf
  · rintro _ _ ⟨heq, -⟩
    cases heq

theorem returns_pure (a : α) : Returns fs (pure a) a := gives_pure ⟨rfl, rfl⟩

/-- A loop whose steps leave the files as they are. -/
theorem returns_forIn {γ : Type} {items : List γ} {step : γ → PUnit → Act (ForInStep PUnit)}
    (h : ∀ item ∈ items, Returns fs (step item ⟨⟩) (.yield ⟨⟩)) :
    Returns fs (forIn items ⟨⟩ step) ⟨⟩ := by
  induction items with
  | nil => exact returns_pure _
  | cons item items ih =>
      rw [List.forIn_cons]
      refine (h item List.mem_cons_self).bind ?_
      exact ih fun other hother => h other (List.mem_cons_of_mem item hother)

theorem Reads.imp {R R' : α → Prop} (h : Reads fs x R) (hR : ∀ a, R a → R' a) : Reads fs x R' :=
  Gives.weaken h fun _ _ ⟨hfs, ha⟩ => ⟨hfs, fun a heq => hR a (ha a heq)⟩

theorem reads_pure {a : α} {R : α → Prop} (h : R a) : Reads fs (pure a) R :=
  gives_pure ⟨rfl, fun _ heq => Except.ok.inj heq ▸ h⟩

theorem reads_throw {cause : Failure} {R : α → Prop} : Reads fs (throw cause) R :=
  gives_throw ⟨rfl, fun _ heq => nomatch heq⟩

/-- Looking at the files never fails. -/
theorem gives_files_bind {f : FileSystem → Act β} {Q : Except Failure β → FileSystem → Prop}
    (h : Gives fs (f fs) Q) : Gives fs (files >>= f) Q := by
  intro s hs
  subst hs
  exact h s rfl

theorem gives_setFiles {fs' : FileSystem} {Q : Except Failure Unit → FileSystem → Prop}
    (h : Q (.ok ()) fs') : Gives fs (setFiles fs') Q :=
  fun _ _ => h

theorem gives_setFiles_bind {fs' : FileSystem} {f : Unit → Act β}
    {Q : Except Failure β → FileSystem → Prop} (h : Gives fs' (f ()) Q) :
    Gives fs (setFiles fs' >>= f) Q :=
  fun s _ => h { s with fs := fs' } rfl

/-- Taking over records never fails. -/
theorem gives_logged_bind {l : Logged α} {f : α → Act β}
    {Q : Except Failure β → FileSystem → Prop} (h : Gives fs (f l.value) Q) :
    Gives fs (logged l >>= f) Q := by
  intro s hs
  exact h { s with log := s.log ++ l.log } hs

theorem gives_echo (text : String) : Returns fs (echo text) () := by
  intro s hs
  subst hs
  exact ⟨rfl, rfl⟩

theorem gives_file_bind {result : Except FileError α} {f : α → Act β}
    {Q : Except Failure β → FileSystem → Prop}
    (hok : ∀ a, result = .ok a → Gives fs (f a) Q)
    (herror : ∀ cause, result = .error cause → Q (.error (.document (.file cause))) fs) :
    Gives fs (file result >>= f) Q := by
  cases result with
  | ok a => exact hok a rfl
  | error cause =>
      intro s hs
      subst hs
      exact herror cause rfl

theorem reads_file (result : Except FileError α) : Reads fs (file result) (result = .ok ·) := by
  cases result with
  | ok a => exact reads_pure rfl
  | error cause => exact reads_throw

theorem reads_document (result : Except DocumentError α) :
    Reads fs (document result) (result = .ok ·) := by
  cases result with
  | ok a => exact reads_pure rfl
  | error cause => exact reads_throw

section Console

variable [Terminal.Console] {markup : String}

/-- Printing a line changes no file, and it ends as the terminal says. -/
theorem yields_print (markup : String) :
    Yields fs (print markup)
      (((Terminal.Console.print false markup).map fun _ => ()).mapError fun _ => .markup) := by
  rintro s rfl
  rw [print]
  cases Terminal.Console.print false markup <;> exact ⟨rfl, rfl⟩

theorem reads_print (markup : String) : Reads fs (print markup) fun _ => True :=
  (yields_print markup).weaken fun _ _ h => ⟨h.2, fun _ _ => trivial⟩

/-- A line that can be printed is. -/
theorem gives_print (h : (Terminal.Console.print false markup).isOk = true) :
    Returns fs (print markup) () := by
  have hprint : Yields fs (print markup) _ := yields_print markup
  obtain ⟨printed, hprinted⟩ := isOk_iff.1 h
  rw [hprinted] at hprint
  exact hprint

theorem gives_print_of_printable [Terminal.LawfulConsole] (h : Terminal.Printable markup) :
    Returns fs (print markup) () :=
  gives_print (Terminal.LawfulConsole.isOk_print false h)

end Console

theorem returns_settingsFor [Yaml.Library] {path : Path} {settings : Settings} {found : Bool}
    (hload : (Settings.load {} fs path).value = (settings, .ok found)) :
    Returns fs (settingsFor path) (settings, found) := by
  rw [settingsFor]
  apply gives_files_bind
  apply gives_logged_bind
  rw [hload]
  exact returns_pure _

theorem run_tryCatch (x : Act α) (handle : Failure → Act α) (s : Session) :
    (tryCatch x handle).run.run s =
      match x.run.run s with
      | (.ok a, s') => (.ok a, s')
      | (.error cause, s') => (handle cause).run.run s' := by
  rw [ExceptT.run_tryCatch, StateT.run_bind]
  change (match x.run.run s with | (result, s') => _) = _
  obtain ⟨_ | _, _⟩ := x.run.run s <;> rfl

/-- What is done after a failure begins with the files as the failure left them. -/
theorem Gives.handled {handle : Failure → Act α} (h : Gives fs x P)
    (hok : ∀ a fs', P (.ok a) fs' → Q (.ok a) fs')
    (herror : ∀ cause fs', P (.error cause) fs' → Gives fs' (handle cause) Q) :
    Gives fs (tryCatch x handle) Q := by
  intro s hs
  have hx := h s hs
  rw [run_tryCatch]
  generalize x.run.run s = ending at hx
  obtain ⟨result, s'⟩ := ending
  cases result with
  | ok a => exact hok a s'.fs hx
  | error cause => exact herror cause s'.fs hx s' rfl

/-! ## Two actions -/

theorem Yields.bind_error {cause : Failure} {f : α → Act β} (h : Yields fs x (.error cause)) :
    Yields fs (x >>= f) (.error cause) := by
  refine Gives.bind h ?_ ?_
  · rintro _ _ ⟨heq, -⟩
    cases heq
  · rintro _ _ ⟨heq, rfl⟩
    exact ⟨congrArg Except.error (Except.error.inj heq), rfl⟩

/-- An action cannot end with two results. -/
theorem Yields.unique {result result' : Except Failure α} (h : Yields fs x result)
    (h' : Yields fs x result') : result = result' :=
  (h { fs } rfl).1.symm.trans (h' { fs } rfl).1

theorem Yields.handled_ok {a : α} {handle : Failure → Act α} (h : Yields fs x (.ok a)) :
    Yields fs (tryCatch x handle) (.ok a) := by
  refine Gives.handled h (fun _ _ h => h) ?_
  rintro _ _ ⟨heq, -⟩
  cases heq

theorem Yields.handled_error {cause : Failure} {handle : Failure → Act α} {result : Except Failure α}
    (h : Yields fs x (.error cause)) (hhandle : Yields fs (handle cause) result) :
    Yields fs (tryCatch x handle) result := by
  refine Gives.handled h ?_ ?_
  · rintro _ _ ⟨heq, -⟩
    cases heq
  · rintro other _ ⟨heq, rfl⟩
    obtain rfl := Except.error.inj heq
    exact hhandle

/-- Two actions that leave the files as they are and end with the same result, whatever was printed or
recorded before. -/
def Agree (fs : FileSystem) (x y : Act α) : Prop :=
  ∃ result, Yields fs x result ∧ Yields fs y result

section Agree

variable {y : Act α} {f g : α → Act β}

/-- Where the first actions agree, the next ones begin with the same value, if they begin at all. -/
theorem Agree.bind_of_returns (h : Agree fs x y) (hnext : ∀ a, Returns fs y a → Agree fs (f a) (g a)) :
    Agree fs (x >>= f) (y >>= g) := by
  obtain ⟨result, hx, hy⟩ := h
  cases result with
  | ok a =>
      obtain ⟨result, hf, hg⟩ := hnext a hy
      exact ⟨result, Returns.bind hx hf, Returns.bind hy hg⟩
  | error cause => exact ⟨.error cause, hx.bind_error, hy.bind_error⟩

theorem Agree.bind (h : Agree fs x y) (hnext : ∀ a, Agree fs (f a) (g a)) :
    Agree fs (x >>= f) (y >>= g) :=
  h.bind_of_returns fun a _ => hnext a

theorem Agree.handled {handle : Failure → Act α} (h : Agree fs x y)
    (hhandle : ∀ cause, Agree fs (handle cause) (handle cause)) :
    Agree fs (tryCatch x handle) (tryCatch y handle) := by
  obtain ⟨result, hx, hy⟩ := h
  cases result with
  | ok a => exact ⟨.ok a, hx.handled_ok, hy.handled_ok⟩
  | error cause =>
      obtain ⟨result, hresult, -⟩ := hhandle cause
      exact ⟨result, hx.handled_error hresult, hy.handled_error hresult⟩

end Agree

end EnvAudit.CommandLine.Act
