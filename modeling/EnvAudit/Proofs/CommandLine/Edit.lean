import EnvAudit.CommandLine.Run
import EnvAudit.Proofs.CommandLine.Act
import EnvAudit.Proofs.Config.Ignored
import EnvAudit.Proofs.Config.Saved

/-!
# Changing the configuration again and again

Each command that changes the configuration loads it, changes it and saves it, and knows nothing of
the commands before it but the files that they left.  What is loaded after any number of them is what
one gets by making the changes to the configuration that was there first.
-/

namespace EnvAudit

namespace Config

/-! ## What a change makes of a configuration -/

/-- The texts that are new to a list, blank characters around them aside, each once and in order. -/
def newEntries (known texts : List String) : List String :=
  ((texts.map Text.trimmed).filter fun entry => entry ≠ "" ∧ entry ∉ known).eraseDups

theorem newEntries_cons_of_known {known texts : List String} {text : String}
    (h : Text.trimmed text = "" ∨ Text.trimmed text ∈ known) :
    newEntries known (text :: texts) = newEntries known texts := by
  have hnot : ¬ (Text.trimmed text ≠ "" ∧ Text.trimmed text ∉ known) := by
    rintro ⟨hne, hnew⟩
    exact h.elim hne hnew
  rw [newEntries, List.map_cons, List.filter_cons_of_neg (by simpa using hnot), newEntries]

theorem newEntries_cons_of_new {known texts : List String} {text : String}
    (h : ¬ (Text.trimmed text = "" ∨ Text.trimmed text ∈ known)) :
    newEntries known (text :: texts) =
      Text.trimmed text :: newEntries (known ++ [Text.trimmed text]) texts := by
  rw [not_or] at h
  rw [newEntries, List.map_cons, List.filter_cons_of_pos (by simpa using h), List.eraseDups_cons,
    List.filter_filter, newEntries]
  congr 2
  apply List.filter_congr
  intro entry _
  by_cases hentry : entry = Text.trimmed text <;> simp [hentry]

theorem addNew_eq (known texts : List String) :
    addNew known texts = (known ++ newEntries known texts, newEntries known texts) := by
  -- The loop carries what it has added so far, also in the list of known entries.
  have hloop : ∀ added, texts.foldl (fun state name =>
      let name := Text.trimmed name
      if name = "" ∨ state.1.contains name then state
      else (state.1 ++ [name], state.2 ++ [name])) (known, added) =
        (known ++ newEntries known texts, added ++ newEntries known texts) := by
    induction texts generalizing known with
    | nil => intro added; simp [newEntries]
    | cons text texts ih =>
        intro added
        rw [List.foldl_cons]
        by_cases htext : Text.trimmed text = "" ∨ Text.trimmed text ∈ known
        · have hknown : Text.trimmed text = "" ∨ known.contains (Text.trimmed text) = true := by
            simpa using htext
          simp only [if_pos hknown]
          rw [ih, newEntries_cons_of_known htext]
        · have hnew : ¬ (Text.trimmed text = "" ∨ known.contains (Text.trimmed text) = true) := by
            simpa using htext
          simp only [if_neg hnew]
          rw [ih, newEntries_cons_of_new htext, List.append_assoc, List.append_assoc]
          rfl
  exact hloop []

theorem mem_append_newEntries {known texts : List String} {name : String} :
    name ∈ known ++ newEntries known texts ↔
      name ∈ known ∨ name ∈ texts.map Text.trimmed ∧ name ≠ "" := by
  rw [List.mem_append, newEntries, List.mem_eraseDups, List.mem_filter]
  by_cases hknown : name ∈ known <;> simp [hknown]

/-- A configuration wherever its file stands. -/
def anywhere (config : Config) : Config := { config with directory := none }

theorem document_anywhere (config : Config) : config.anywhere.document = config.document := rfl

end Config

namespace CommandLine

open Act

/-- A change of the configuration. -/
inductive Edit
  | ignoreVariables (names : List String)
  | ignoreFiles (files : List String)
  | setPriority (level : Severity)
  | reset
deriving Repr, DecidableEq

namespace Edit

/-- The command that makes a change; whoever resets is not asked. -/
def command : Edit → Command
  | ignoreVariables names => .ignore names
  | ignoreFiles files => .ignoreFiles files
  | setPriority level => .priority level
  | reset => .resetIgnore true

/-- Whether the files that a change names can be looked up. -/
def isResolved (fs : FileSystem) : Edit → Bool
  | ignoreFiles files => (files.mapM (ignoreEntry fs)).isOk
  | _ => true

/-- What a change makes of a configuration.  Nothing changes if a file cannot be looked up. -/
def apply (fs : FileSystem) (config : Config) : Edit → Config
  | ignoreVariables names =>
    let added := Config.newEntries config.ignoredVariables names
    { config with ignoredVariables := config.ignoredVariables ++ added }
  | ignoreFiles files =>
    match files.mapM (ignoreEntry fs) with
    | .ok entries =>
      let added := Config.newEntries config.ignoredFiles entries
      { config with ignoredFiles := config.ignoredFiles ++ added }
    | .error _ => config
  | setPriority level => { config with minSeverity := level.name }
  | reset => { config with ignoredVariables := [], ignoredFiles := [] }

variable {fs fs' : FileSystem} {config : Config} {settings settings' : Settings} {edit : Edit}
  {edits : List Edit} {target : Path} {loudness : Loudness} {found : Bool} {name : String}

theorem minSeverity_apply (h : config.minSeverity ≠ "") (edit : Edit) :
    (edit.apply fs config).minSeverity ≠ "" := by
  cases edit with
  | ignoreFiles files =>
      rw [apply]
      split <;> exact h
  | setPriority level =>
      change level.name ≠ ""
      cases level <;> decide
  | ignoreVariables | reset => exact h

/-- A change does not touch the directory and does not look at it. -/
theorem anywhere_apply (edit : Edit) :
    (edit.apply fs config).anywhere = edit.apply fs config.anywhere := by
  cases edit with
  | ignoreFiles files =>
      rw [apply, apply]
      split <;> rfl
  | ignoreVariables | setPriority | reset => rfl

theorem apply_of_not_isResolved (h : edit.isResolved fs = false) : edit.apply fs config = config := by
  cases edit with
  | ignoreFiles files =>
      rw [isResolved] at h
      rw [apply]
      cases hentries : files.mapM (ignoreEntry fs) with
      | ok entries =>
          rw [hentries] at h
          cases h
      | error cause => rfl
  | ignoreVariables | setPriority | reset => cases h

section Console

variable [Terminal.Console]

section Lines

open Terminal

variable [LawfulConsole]

/-- The line about a name can be printed if both lines can, whether the name is new or known. -/
theorem returns_lineOn {isNew : Bool} {new known : String} (hnew : Printable new)
    (hknown : Printable known) :
    Returns fs (do
      if isNew then print new
      else print known
      pure (ForInStep.yield PUnit.unit)) (.yield ⟨⟩) := by
  cases isNew with
  | true => exact (gives_print_of_printable hnew).bind (returns_pure _)
  | false => exact (gives_print_of_printable hknown).bind (returns_pure _)

/-- The line about a variable can be printed, whatever the name is. -/
theorem returns_variableLine (isNew : Bool) (name : String) :
    Returns fs (do
      if isNew then print s!"[green]✔ Now ignoring {Console.escape name}[/green]"
      else print s!"[dim]{Console.escape name} is already ignored[/dim]"
      pure (ForInStep.yield PUnit.unit)) (.yield ⟨⟩) :=
  returns_lineOn
    (.of_line "green" "✔ Now ignoring " "" (by decide) (by decide) (by decide)
      (.escaped (by decide) name (by decide)))
    (.of_line "dim" "" " is already ignored" (by decide) (by decide) (by decide)
      (.escaped (by decide) name (by decide)))

/-- The line about a file can be printed, whatever the path is. -/
theorem returns_fileLine (isNew : Bool) (entry : String) :
    Returns fs (do
      if isNew then print s!"[green]✔ Now ignoring ALL variables in {Console.escape entry}[/green]"
      else print s!"[dim]ALL variables in {Console.escape entry} are already ignored[/dim]"
      pure (ForInStep.yield PUnit.unit)) (.yield ⟨⟩) :=
  returns_lineOn
    (.of_line "green" "✔ Now ignoring ALL variables in " "" (by decide) (by decide) (by decide)
      (.escaped (by decide) entry (by decide)))
    (.of_line "dim" "ALL variables in " " are already ignored" (by decide) (by decide) (by decide)
      (.escaped (by decide) entry (by decide)))

end Lines

variable [Yaml.Library]

omit [Terminal.Console] in
theorem gives_settingsHere (hload : (Settings.load {} fs fs.cwdPath).value = (settings, .ok found)) :
    Returns fs settingsHere settings := by
  rw [settingsHere]
  apply gives_files_bind
  exact (returns_settingsFor hload).bind (returns_pure _)

theorem gives_saveSettings (hsave : settings.save fs none = .ok (settings', fs', target)) :
    Gives fs (saveSettings settings) fun _ after => after = fs' := by
  rw [saveSettings]
  apply gives_files_bind
  apply gives_file_bind
  · intro saved hsaved
    obtain rfl := Except.ok.inj (hsave.symm.trans hsaved)
    apply gives_setFiles_bind
    exact (reads_print _).weaken fun _ _ h => h.1
  · intro cause hrefused
    cases hsave.symm.trans hrefused

/-- What follows the saving of settings leaves the files as they are then. -/
theorem gives_saveSettings_bind {α : Type} {next : Unit → Act α} {R : α → Prop}
    (hsave : settings.save fs none = .ok (settings', fs', target)) (hnext : Reads fs' (next ()) R) :
    Gives fs (saveSettings settings >>= next) fun _ after => after = fs' := by
  refine (gives_saveSettings hsave).bind ?_ fun _ _ h => h
  rintro _ _ rfl
  exact hnext.weaken fun _ _ h => h.1

variable [Pattern.Compiler]

/-- The files after a command. -/
def filesAfter (loudness : Loudness) (fs : FileSystem) (edit : Edit) : FileSystem :=
  ((edit.command.perform loudness).run.run { fs }).2.fs

/-- A command saves the changed configuration, whatever it tells about it. -/
theorem gives_perform [Terminal.LawfulConsole]
    (hload : (Settings.load {} fs fs.cwdPath).value = (settings, .ok found)) (hresolved : edit.isResolved fs = true)
    (hsave : { settings with config := edit.apply fs settings.config }.save fs none =
      .ok (settings', fs', target)) :
    Gives fs (edit.command.perform loudness) fun _ after => after = fs' := by
  have hsettings := gives_settingsHere hload
  cases edit with
  | ignoreVariables names =>
      rw [command, Command.perform, CommandLine.ignoreVariables]
      refine hsettings.bind ?_
      rw [Config.ignoreVariables, Config.addNew_eq]
      dsimp only
      refine Returns.bind (returns_forIn ?_) ?_
      · intro name _
        exact returns_variableLine _ name
      · exact gives_saveSettings_bind hsave (R := fun _ => True) (reads_pure trivial)
  | ignoreFiles files =>
      rw [command, Command.perform, CommandLine.ignoreFiles]
      refine hsettings.bind (gives_files_bind ?_)
      cases hentries : files.mapM (ignoreEntry fs) with
      | error cause =>
          rw [isResolved, hentries] at hresolved
          cases hresolved
      | ok entries =>
          rw [apply, hentries] at hsave
          refine gives_file_bind ?_ nofun
          intro _ hok
          obtain rfl := Except.ok.inj hok
          rw [Config.ignoreFiles, Config.addNew_eq]
          dsimp only
          refine Returns.bind (returns_forIn ?_) ?_
          · intro entry _
            exact returns_fileLine _ entry
          · exact gives_saveSettings_bind hsave (R := fun _ => True) (reads_pure trivial)
  | setPriority level =>
      rw [command, Command.perform, CommandLine.setPriority]
      refine hsettings.bind (gives_saveSettings_bind (R := fun _ => True) hsave ?_)
      exact (reads_print _).seq fun _ _ => reads_pure trivial
  | reset =>
      rw [command, Command.perform, CommandLine.resetIgnored]
      refine hsettings.bind (Returns.bind (returns_pure true) ?_)
      refine gives_saveSettings_bind (R := fun _ => True) hsave ?_
      exact (reads_print _).seq fun _ _ => reads_pure trivial

theorem gives_perform_of_not_isResolved
    (hload : (Settings.load {} fs fs.cwdPath).value = (settings, .ok found))
    (hresolved : edit.isResolved fs = false) :
    Gives fs (edit.command.perform loudness) fun _ after => after = fs := by
  cases edit with
  | ignoreFiles files =>
      rw [command, Command.perform, CommandLine.ignoreFiles]
      refine (gives_settingsHere hload).bind (gives_files_bind ?_)
      apply gives_file_bind
      · intro entries hentries
        rw [isResolved, hentries] at hresolved
        cases hresolved
      · exact fun _ _ => rfl
  | ignoreVariables | setPriority | reset => cases hresolved

end Console

end Edit

end CommandLine

end EnvAudit
