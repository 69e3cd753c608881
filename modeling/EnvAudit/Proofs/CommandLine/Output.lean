import EnvAudit.Proofs.CommandLine.Act

/-!
# What actions print

Nothing that was printed is taken back, so what an action prints stands behind what was printed before.  Most
actions print nothing; of these only the results and the files matter.
-/

namespace EnvAudit.CommandLine.Act

variable {α β : Type} {fs : FileSystem} {x : Act α}
variable {P Q : Except Failure α → FileSystem → List Char → Prop}

/-- Begun with the files, an action prints something; `Q` holds for its result, for the files after it and
for what it has printed. -/
def Prints (fs : FileSystem) (x : Act α) (Q : Except Failure α → FileSystem → List Char → Prop) : Prop :=
  ∀ s : Session, s.fs = fs → ∃ printed, (x.run.run s).2.output = s.output ++ printed ∧
    Q (x.run.run s).1 (x.run.run s).2.fs printed

/-- An action that prints nothing. -/
def Silent (x : Act α) : Prop := ∀ s : Session, (x.run.run s).2.output = s.output

/-! ## One action after another -/

theorem Prints.weaken (h : Prints fs x P)
    (hPQ : ∀ result fs' printed, P result fs' printed → Q result fs' printed) : Prints fs x Q := by
  intro s hs
  obtain ⟨printed, hprinted, hP⟩ := h s hs
  exact ⟨printed, hprinted, hPQ _ _ _ hP⟩

theorem Prints.bind {f : α → Act β} {Q : Except Failure β → FileSystem → List Char → Prop}
    (h : Prints fs x P)
    (hok : ∀ a fs' before, P (.ok a) fs' before →
      Prints fs' (f a) fun result fs'' printed => Q result fs'' (before ++ printed))
    (herror : ∀ cause fs' printed, P (.error cause) fs' printed → Q (.error cause) fs' printed) :
    Prints fs (x >>= f) Q := by
  intro s hs
  obtain ⟨before, hbefore, hP⟩ := h s hs
  rw [run_bind]
  generalize x.run.run s = ending at hbefore hP
  obtain ⟨result, s'⟩ := ending
  cases result with
  | ok a =>
      obtain ⟨printed, hprinted, hQ⟩ := hok a s'.fs before hP s' rfl
      exact ⟨before ++ printed, by rw [hprinted, hbefore, List.append_assoc], hQ⟩
  | error cause => exact ⟨before, hbefore, herror cause s'.fs before hP⟩

theorem Prints.handled {handle : Failure → Act α} (h : Prints fs x P)
    (hok : ∀ a fs' printed, P (.ok a) fs' printed → Q (.ok a) fs' printed)
    (herror : ∀ cause fs' before, P (.error cause) fs' before →
      Prints fs' (handle cause) fun result fs'' printed => Q result fs'' (before ++ printed)) :
    Prints fs (tryCatch x handle) Q := by
  intro s hs
  obtain ⟨before, hbefore, hP⟩ := h s hs
  rw [run_tryCatch]
  generalize x.run.run s = ending at hbefore hP
  obtain ⟨result, s'⟩ := ending
  cases result with
  | ok a => exact ⟨before, hbefore, hok a s'.fs before hP⟩
  | error cause =>
      obtain ⟨printed, hprinted, hQ⟩ := herror cause s'.fs before hP s' rfl
      exact ⟨before ++ printed, by rw [hprinted, hbefore, List.append_assoc], hQ⟩

/-! ## Actions that print nothing -/

theorem Silent.prints {P : Except Failure α → FileSystem → Prop} (hsilent : Silent x) (h : Gives fs x P) :
    Prints fs x fun result fs' printed => P result fs' ∧ printed = [] :=
  fun s hs => ⟨[], by rw [hsilent, List.append_nil], h s hs, rfl⟩

theorem Silent.bind {f : α → Act β} (h : Silent x) (hf : ∀ a, Silent (f a)) : Silent (x >>= f) := by
  intro s
  have hx := h s
  rw [run_bind]
  generalize x.run.run s = ending at hx
  obtain ⟨_ | a, s'⟩ := ending
  · exact hx
  · exact (hf a s').trans hx

theorem silent_pure (a : α) : Silent (pure a) := fun _ => rfl

theorem silent_throw (cause : Failure) : Silent (throw cause : Act α) := fun _ => rfl

theorem silent_files : Silent files := fun _ => rfl

theorem silent_logged (l : Logged α) : Silent (logged l) := fun _ => rfl

theorem silent_file (result : Except FileError α) : Silent (file result) := by
  cases result with
  | ok a => exact silent_pure a
  | error cause => exact silent_throw _

theorem silent_document (result : Except DocumentError α) : Silent (document result) := by
  cases result with
  | ok a => exact silent_pure a
  | error cause => exact silent_throw _

/-- An action that prints nothing and leaves the files as they are comes before another one. -/
theorem Reads.prints_bind {f : α → Act β} {R : α → Prop}
    {Q : Except Failure β → FileSystem → List Char → Prop} (h : Reads fs x R) (hsilent : Silent x)
    (hok : ∀ a, R a → Prints fs (f a) Q) (herror : ∀ cause, Q (.error cause) fs []) :
    Prints fs (x >>= f) Q := by
  refine (hsilent.prints h).bind ?_ ?_
  · rintro a _ _ ⟨⟨rfl, ha⟩, rfl⟩
    exact hok a (ha a rfl)
  · rintro cause _ _ ⟨⟨rfl, -⟩, rfl⟩
    exact herror cause

theorem prints_files_bind {f : FileSystem → Act β} {Q : Except Failure β → FileSystem → List Char → Prop}
    (h : Prints fs (f fs) Q) : Prints fs (files >>= f) Q := by
  intro s hs
  rw [run_files_bind, hs]
  exact h s hs

theorem prints_logged_bind {l : Logged α} {f : α → Act β}
    {Q : Except Failure β → FileSystem → List Char → Prop} (h : Prints fs (f l.value) Q) :
    Prints fs (logged l >>= f) Q := by
  intro s hs
  rw [run_logged_bind]
  exact h { s with log := s.log ++ l.log } hs

theorem prints_setFiles_bind {fs' : FileSystem} {f : Unit → Act β}
    {Q : Except Failure β → FileSystem → List Char → Prop} (h : Prints fs' (f ()) Q) :
    Prints fs (setFiles fs' >>= f) Q :=
  fun s _ => h { s with fs := fs' } rfl

/-! ## Actions that print -/

theorem prints_pure {a : α} (h : Q (.ok a) fs []) : Prints fs (pure a) Q := by
  rintro s rfl
  exact ⟨[], (List.append_nil _).symm, h⟩

theorem prints_throw {cause : Failure} (h : Q (.error cause) fs []) : Prints fs (throw cause) Q := by
  rintro s rfl
  exact ⟨[], (List.append_nil _).symm, h⟩

theorem prints_echo {text : String} {Q : Except Failure Unit → FileSystem → List Char → Prop}
    (h : Q (.ok ()) fs text.toList) : Prints fs (echo text) Q := by
  rintro s rfl
  exact ⟨text.toList, rfl, h⟩

section Console

variable [Terminal.Console] {markup : String}

/-- A line is printed, or nothing is. -/
theorem prints_print {Q : Except Failure Unit → FileSystem → List Char → Prop}
    (hok : ∀ printed, Terminal.Console.print false markup = .ok printed → Q (.ok ()) fs printed)
    (herror : Q (.error .markup) fs []) : Prints fs (print markup) Q := by
  rw [print]
  split
  · exact prints_throw herror
  · rename_i printed hprint
    rintro s rfl
    exact ⟨_, rfl, hok printed hprint⟩

/-- A line that begins with a style and a letter is printed with the letter, if it is printed. -/
theorem prints_print_styled [Terminal.LawfulConsole] {style text : String} {c : Char}
    (hstyle : style ∈ Terminal.styles) (hc : c ∈ text.toList.head?) (hletter : c.isAlpha = true) :
    Prints fs (print s!"[{style}]{text}") fun result fs' printed =>
      fs' = fs ∧ (result = .ok () ∧ c ∈ printed ∨ (∃ cause, result = .error cause) ∧ printed = []) := by
  refine prints_print (fun printed hprint => ⟨rfl, .inl ⟨rfl, ?_⟩⟩) ⟨rfl, .inr ⟨⟨_, rfl⟩, rfl⟩⟩
  exact Terminal.LawfulConsole.mem_print hstyle hc hletter hprint

end Console

end EnvAudit.CommandLine.Act
