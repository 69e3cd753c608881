import EnvAudit.Proofs.Config.Answered
import EnvAudit.Proofs.FileSystem.Direct
import EnvAudit.Proofs.Glob

/-!
# Rules for ignored files

An entry of a configuration asks for all that lies below a directory, for all files with a name, or for
one file.  Three tests overlap on each entry, but together they say what the entry asks for.  An entry
that cannot be resolved is in the way of an answer, although its glob needs no file system.
-/

namespace EnvAudit

/-- No character of a text is a backslash or a mark of globs. -/
def IsPlainText (text : String) : Prop := ∀ c ∈ text.toList, c ≠ '\\' ∧ Glob.IsPlain c

instance (text : String) : Decidable (IsPlainText text) :=
  inferInstanceAs (Decidable (∀ c ∈ text.toList, c ≠ '\\' ∧ Glob.IsPlain c))

theorem IsPlainText.notMem_slash {text : String} (h : IsPlainText text) : '\\' ∉ text.toList :=
  fun hmem => (h _ hmem).1 rfl

theorem IsPlainText.notMem_star {text : String} (h : IsPlainText text) : '*' ∉ text.toList :=
  fun hmem => (h _ hmem).2.1 rfl

theorem IsPlainText.isPlain {text : String} (h : IsPlainText text) : ∀ c ∈ text.toList, Glob.IsPlain c :=
  fun c hc => (h c hc).2

/-- A name that a rule can ask for. -/
structure AskedName (name : String) : Prop extends PathName name where
  ne_up : name ≠ ".."
  plain : IsPlainText name

instance (name : String) : Decidable (AskedName name) :=
  decidable_of_iff ((name ≠ "" ∧ name ≠ "." ∧ '/' ∉ name.toList) ∧ name ≠ ".." ∧ IsPlainText name)
    ⟨fun ⟨⟨a, b, c⟩, d, e⟩ => ⟨⟨a, b, c⟩, d, e⟩, fun ⟨⟨a, b, c⟩, d, e⟩ => ⟨⟨a, b, c⟩, d, e⟩⟩

namespace Config

variable {dirs names : List String} {name path entry : String} {front chars glob : List Char}

/-! ## Texts of plain characters -/

theorem exists_mem_of_mem_intercalate {c : Char} (h : c ∈ ("/".intercalate names).toList) :
    c = '/' ∨ ∃ name ∈ names, c ∈ name.toList := by
  have hslash : "/".toList = ['/'] := rfl
  rw [String.toList_intercalate, hslash] at h
  refine (Text.mem_intercalate h).imp_right ?_
  rintro ⟨piece, hpiece, hc⟩
  obtain ⟨name, hname, rfl⟩ := List.mem_map.1 hpiece
  exact ⟨name, hname, hc⟩

theorem isPlainText_intercalate (h : ∀ name ∈ names, IsPlainText name) :
    IsPlainText ("/".intercalate names) := by
  intro c hc
  rcases exists_mem_of_mem_intercalate hc with rfl | ⟨name, hname, hc⟩
  · decide
  · exact h name hname c hc

theorem forwardSlashes_of_notMem (h : '\\' ∉ chars) : forwardSlashes chars = chars := by
  have hid : ∀ c ∈ chars, (if c = '\\' then '/' else c) = id c := by
    intro c hc
    refine if_neg fun heq => h ?_
    rwa [← heq]
  rw [forwardSlashes, List.map_congr_left hid, List.map_id]

theorem subtreeOf?_append (front : List Char) : subtreeOf? (front ++ ['/', '*', '*']) = some front := by
  have hsuffix : ['/', '*', '*'].isSuffixOf (front ++ ['/', '*', '*']) = true :=
    List.isSuffixOf_iff_suffix.2 (List.suffix_append _ _)
  rw [subtreeOf?, if_pos hsuffix]
  simp

theorem subtreeOf?_eq_none (h : glob.getLast? ≠ some '*') : subtreeOf? glob = none := by
  rw [subtreeOf?, if_neg]
  intro hsuffix
  obtain ⟨front, rfl⟩ := List.isSuffixOf_iff_suffix.1 hsuffix
  simp at h

/-! ## Names and their spelling -/

theorem steps_of_pathName (h : PathName name) : FileSystem.steps name = [name] := by
  have hsteps := FileSystem.steps_intercalate (List.cons_ne_nil name []) (by simpa using h)
  rwa [String.intercalate_singleton] at hsteps

/-- A path begins with names if its spelling is theirs, or theirs and a slash with more behind it. -/
theorem prefix_iff_spelled (hdirs : dirs ≠ []) (hnames : names ≠ []) (hdir : ∀ name ∈ dirs, PathName name)
    (hname : ∀ name ∈ names, PathName name) :
    dirs <+: names ↔ ("/".intercalate dirs).toList ++ ['/'] <+: ("/".intercalate names).toList ∨
      "/".intercalate names = "/".intercalate dirs := by
  have hslash : "/".toList = ['/'] := rfl
  constructor
  · rintro ⟨more, rfl⟩
    by_cases hmore : more = []
    · exact .inr (by rw [hmore, List.append_nil])
    · refine .inl ⟨("/".intercalate more).toList, ?_⟩
      rw [String.intercalate_append_of_ne_nil hdirs hmore, String.toList_append, String.toList_append, hslash]
  · rintro (⟨rest, hrest⟩ | heq)
    · have hspelled : "/".intercalate names = "/".intercalate dirs ++ "/" ++ String.ofList rest := by
        apply String.toList_injective
        rw [String.toList_append, String.toList_append, hslash, String.toList_ofList, hrest]
      have hsteps := congrArg FileSystem.steps hspelled
      rw [FileSystem.steps_append, FileSystem.steps_intercalate hnames hname,
        FileSystem.steps_intercalate hdirs hdir] at hsteps
      exact ⟨_, hsteps.symm⟩
    · have hsteps := congrArg FileSystem.steps heq
      rw [FileSystem.steps_intercalate hnames hname, FileSystem.steps_intercalate hdirs hdir] at hsteps
      rw [hsteps]

/-- A spelled path ends in its last name. -/
theorem getLast?_of_suffix (hnames : names ≠ []) (hname : ∀ name ∈ names, PathName name)
    (hlast : PathName name) (h : '/' :: name.toList <:+ ("/".intercalate names).toList) :
    names.getLast? = some name := by
  obtain ⟨front, hfront⟩ := h
  have hslash : "/".toList = ['/'] := rfl
  have hspelled : "/".intercalate names = String.ofList front ++ "/" ++ name := by
    apply String.toList_injective
    rw [String.toList_append, String.toList_append, hslash, String.toList_ofList, ← hfront,
      List.append_assoc, List.singleton_append]
  have hsteps := congrArg FileSystem.steps hspelled
  rw [FileSystem.steps_append, FileSystem.steps_intercalate hnames hname, steps_of_pathName hlast] at hsteps
  rw [hsteps, List.getLast?_append, List.getLast?_singleton, Option.some_or]

/-! ## Rules -/

/-- What an entry asks for. -/
inductive IgnoreRule
  /-- The directory with these names below the base directory, and all below it. -/
  | below (dirs : List String)
  /-- Every file with this name. -/
  | named (name : String)
  /-- The one file to which the entry leads. -/
  | plain (entry : String)

namespace IgnoreRule

def text : IgnoreRule → String
  | below dirs => "/".intercalate dirs ++ "/**"
  | named name => "**/" ++ name
  | plain entry => entry

/-- A rule whose own text, apart from its stars, has no marks of globs. -/
def Proper : IgnoreRule → Prop
  | below dirs => dirs ≠ [] ∧ ∀ name ∈ dirs, AskedName name
  | named name => AskedName name
  | plain entry => IsPlainText entry

/-- The files that a rule asks for. -/
def Covers (fs : FileSystem) (base resolved : Path) : IgnoreRule → Prop
  | below dirs => base.parts ++ dirs <+: resolved.parts
  | named name => resolved.parts.getLast? = some name
  | plain entry => fs.LeadsTo base entry resolved ∨ fs.resolve (.ofString entry) = .ok resolved

/-- What the glob of a rule fits of the paths below the base directory. -/
def Fits (names : List String) : IgnoreRule → Prop
  | below dirs => dirs <+: names
  | named name => names.getLast? = some name
  | plain entry => "/".intercalate names = entry

end IgnoreRule

/-! ## The three tests of a glob -/

/-- Whether a path is a directory or lies below it, if the glob asks for that. -/
def subtreeFits (path : List Char) (glob : List Char) : Bool :=
  match subtreeOf? glob with
  | some dir => (dir ++ ['/']).isPrefixOf path || path == dir
  | none => false

/-- Whether the last name of a path fits, if the glob asks for that. -/
def lastFits (path : List Char) : List Char → Bool
  | '*' :: '*' :: '/' :: rest => Glob.fits rest (Path.ofString (String.ofList path)).name.toList
  | _ => false

theorem globFits_eq (hpath : '\\' ∉ path.toList) (hentry : '\\' ∉ entry.toList) :
    globFits path entry = (Glob.fits entry.toList path.toList ||
      subtreeFits path.toList entry.toList || lastFits path.toList entry.toList) := by
  rw [globFits, forwardSlashes_of_notMem hpath, forwardSlashes_of_notMem hentry]
  rfl

theorem subtreeFits_append_iff {dir path : List Char} :
    subtreeFits path (dir ++ ['/', '*', '*']) = true ↔ dir ++ ['/'] <+: path ∨ path = dir := by
  rw [subtreeFits, subtreeOf?_append, Bool.or_eq_true, List.isPrefixOf_iff_prefix, beq_iff_eq]

theorem subtreeFits_eq_false {path : List Char} (h : glob.getLast? ≠ some '*') :
    subtreeFits path glob = false := by
  rw [subtreeFits, subtreeOf?_eq_none h]

theorem lastFits_eq_false {path : List Char} (h : glob.head? ≠ some '*') : lastFits path glob = false := by
  unfold lastFits
  split
  · exact absurd rfl h
  · rfl

theorem head?_ne_of_notMem {c : Char} (h : c ∉ chars) : chars.head? ≠ some c :=
  fun heq => h (List.mem_of_mem_head? heq)

theorem getLast?_ne_of_notMem {c : Char} (h : c ∉ chars) : chars.getLast? ≠ some c :=
  fun heq => h (List.mem_of_getLast? heq)

theorem globFits_below_iff (hpath : '\\' ∉ path.toList) (hdirs : dirs ≠ [])
    (hasked : ∀ name ∈ dirs, AskedName name) :
    globFits path (IgnoreRule.below dirs).text = true ↔
      ("/".intercalate dirs).toList ++ ['/'] <+: path.toList ∨ path = "/".intercalate dirs := by
  have hplain := isPlainText_intercalate fun name hname => (hasked name hname).plain
  have hne := FileSystem.intercalate_ne_empty hdirs fun name hname => (hasked name hname).toPathName
  have hglob : (IgnoreRule.below dirs).text.toList = ("/".intercalate dirs).toList ++ ['/', '*', '*'] := by
    rw [IgnoreRule.text, String.toList_append]
    rfl
  have hentry : '\\' ∉ (IgnoreRule.below dirs).text.toList := by
    rw [hglob]
    simpa using hplain.notMem_slash
  have hhead : (("/".intercalate dirs).toList ++ ['/', '*', '*']).head? ≠ some '*' := by
    rw [List.head?_append_of_ne_nil _ fun hnil => hne (String.toList_injective hnil)]
    exact head?_ne_of_notMem hplain.notMem_star
  have hfits : Glob.fits (("/".intercalate dirs).toList ++ ['/', '*', '*']) path.toList = true ↔
      ("/".intercalate dirs).toList ++ ['/'] <+: path.toList := by
    have happend : ("/".intercalate dirs).toList ++ ['/', '*', '*'] =
        ("/".intercalate dirs).toList ++ ['/'] ++ ['*', '*'] := by simp
    rw [happend, Glob.fits_append_stars_iff]
    simp only [List.forall_mem_append, List.forall_mem_singleton]
    exact ⟨hplain.isPlain, by decide⟩
  rw [globFits_eq hpath hentry, hglob, Bool.or_eq_true, Bool.or_eq_true, hfits, subtreeFits_append_iff,
    lastFits_eq_false hhead, String.toList_inj]
  simp only [Bool.false_eq_true, or_false, or_self_left]

theorem globFits_named_iff (hpath : '\\' ∉ path.toList) (hasked : AskedName name) :
    globFits path (IgnoreRule.named name).text = true ↔
      '/' :: name.toList <:+ path.toList ∨ (Path.ofString path).name = name := by
  have hglob : (IgnoreRule.named name).text.toList = '*' :: '*' :: '/' :: name.toList := by
    rw [IgnoreRule.text, String.toList_append]
    rfl
  have hentry : '\\' ∉ (IgnoreRule.named name).text.toList := by
    rw [hglob]
    simpa using hasked.plain.notMem_slash
  have hlast : ('*' :: '*' :: '/' :: name.toList).getLast? ≠ some '*' := by
    have happend : '*' :: '*' :: '/' :: name.toList = ['*', '*', '/'] ++ name.toList := rfl
    rw [happend, List.getLast?_append_of_ne_nil _ (by simpa using hasked.ne_empty)]
    exact getLast?_ne_of_notMem hasked.plain.notMem_star
  have hfits : Glob.fits ('*' :: '*' :: '/' :: name.toList) path.toList = true ↔
      '/' :: name.toList <:+ path.toList :=
    Glob.fits_stars_append_iff (List.forall_mem_cons.2 ⟨by decide, hasked.plain.isPlain⟩)
  have hname : lastFits path.toList ('*' :: '*' :: '/' :: name.toList) = true ↔
      (Path.ofString path).name = name := by
    rw [lastFits, String.ofList_toList, Glob.fits_plain_iff hasked.plain.isPlain, String.toList_inj]
  rw [globFits_eq hpath hentry, hglob, Bool.or_eq_true, Bool.or_eq_true, hfits,
    subtreeFits_eq_false hlast, hname]
  simp only [Bool.false_eq_true, or_false]

theorem globFits_plain_iff (hpath : '\\' ∉ path.toList) (hplain : IsPlainText entry) :
    globFits path entry = true ↔ path = entry := by
  have hlast := getLast?_ne_of_notMem hplain.notMem_star
  have hhead := head?_ne_of_notMem hplain.notMem_star
  rw [globFits_eq hpath hplain.notMem_slash, subtreeFits_eq_false hlast, lastFits_eq_false hhead,
    Bool.or_false, Bool.or_false, Glob.fits_plain_iff hplain.isPlain, String.toList_inj]

/-- The glob of a rule fits a path below the base directory if the rule asks for it. -/
theorem globFits_iff {rule : IgnoreRule} (hrule : rule.Proper) (hnames : names ≠ [])
    (hasked : ∀ name ∈ names, AskedName name) :
    globFits ("/".intercalate names) rule.text = true ↔ rule.Fits names := by
  have hname : ∀ name ∈ names, PathName name := fun name h => (hasked name h).toPathName
  have hpath := (isPlainText_intercalate fun name h => (hasked name h).plain).notMem_slash
  cases rule with
  | below dirs =>
      obtain ⟨hdirs, hdir⟩ := hrule
      rw [globFits_below_iff hpath hdirs hdir]
      exact (prefix_iff_spelled hdirs hnames (fun name h => (hdir name h).toPathName) hname).symm
  | named name =>
      have hlast : (Path.ofString ("/".intercalate names)).name = name ↔ names.getLast? = some name := by
        have hsome : names.getLast? = some (names.getLast hnames) := List.getLast?_eq_some_getLast hnames
        rw [Path.ofString_intercalate hnames hname, Path.name, hsome, Option.getD_some, Option.some.injEq]
      rw [globFits_named_iff hpath hrule, hlast]
      exact or_iff_right_of_imp fun hsuffix => getLast?_of_suffix hnames hname hrule.toPathName hsuffix
  | plain entry => exact globFits_plain_iff hpath hrule

/-! ## Entries -/

variable {fs : FileSystem} {base resolved : Path} {file : String} {answer : Bool} {rule : IgnoreRule}

theorem below?_append (start : PathRoot) (parts names : List String) :
    Path.below? ⟨start, parts⟩ ⟨start, parts ++ names⟩ = some names := by
  rw [Path.below?, if_pos rfl]
  induction parts with
  | nil => rfl
  | cons part parts ih =>
      rw [List.cons_append, Path.below?.go, if_pos rfl]
      exact ih

/-- A file below the base directory, reached without links, with no marks of globs in its names. -/
structure AskedFile (fs : FileSystem) (base : List String) (file : String) (names : List String) : Prop where
  denotes : fs.Denotes file ⟨.slash, base ++ names⟩
  goesDirect : fs.GoesDirect (.ofString file)
  ne_nil : names ≠ []
  plain : ∀ name ∈ base ++ names, IsPlainText name

section AskedFile

variable {dir : List String}

theorem AskedFile.resolve_self (h : AskedFile fs dir file names) (hfs : fs.Sound) :
    fs.resolve ⟨.slash, dir ++ names⟩ = .ok ⟨.slash, dir ++ names⟩ :=
  (hfs.resolve_of_goesDirect (Path.pathName_parts_ofString file) h.goesDirect h.denotes.2).2.2

theorem AskedFile.askedName (h : AskedFile fs dir file names) (hfs : fs.Sound) :
    ∀ name ∈ names, AskedName name := by
  intro name hname
  have hmem : name ∈ dir ++ names := List.mem_append_right _ hname
  have hplace := hfs.resolve_of_goesDirect (Path.pathName_parts_ofString file) h.goesDirect h.denotes.2
  have hresolved := hplace.2.1.names name hmem
  exact ⟨hresolved.toPathName, hresolved.ne_up, h.plain name hmem⟩

/-- An entry with two stars among its names leads to no such file. -/
theorem AskedFile.not_leads_of_stars (h : AskedFile fs dir file names) (hstars : fs.root.Avoids "**")
    {front rest : List String} (hfront : ∀ name ∈ front, AskedName name)
    (hrest : ∀ name ∈ rest, AskedName name) (hentry : entry = "/".intercalate (front ++ "**" :: rest)) :
    ¬ fs.resolve (.ofString entry) = .ok ⟨.slash, dir ++ names⟩ ∧
      ¬ fs.LeadsTo ⟨.slash, dir⟩ entry ⟨.slash, dir ++ names⟩ := by
  have hnames : ∀ name ∈ front ++ "**" :: rest, PathName name := by
    simp only [List.forall_mem_append, List.forall_mem_cons]
    exact ⟨fun name hname => (hfront name hname).toPathName, ⟨by decide, by decide, by decide⟩,
      fun name hname => (hrest name hname).toPathName⟩
  have hkept : ∀ name ∈ "**" :: rest, PathName name ∧ name ≠ ".." :=
    List.forall_mem_cons.2 ⟨⟨⟨by decide, by decide, by decide⟩, by decide⟩,
      fun name hname => ⟨(hrest name hname).toPathName, (hrest name hname).ne_up⟩⟩
  have hparts : Path.ofString entry = ⟨.here, front ++ "**" :: rest⟩ := by
    rw [hentry, Path.ofString_intercalate (by simp) hnames]
  have hfree : "**" ∉ dir ++ names := fun hmem => absurd (h.plain _ hmem) (by decide)
  have hjoin : (⟨.slash, dir⟩ : Path) / Path.ofString entry = ⟨.slash, (dir ++ front) ++ "**" :: rest⟩ := by
    rw [hparts, List.append_assoc]
    rfl
  constructor
  · intro hresolve
    rw [hparts] at hresolve
    exact hfree (FileSystem.mem_parts_of_resolve hstars hkept rfl hresolve)
  · intro hleads
    rw [FileSystem.LeadsTo, hjoin] at hleads
    exact hfree (FileSystem.mem_parts_of_resolve hstars hkept rfl hleads)

/-- An entry ignores such a file exactly if its rule asks for the file. -/
theorem AskedFile.entryIgnores_iff_covers (h : AskedFile fs dir file names) (hfs : fs.Sound)
    (hstars : fs.root.Avoids "**") (hrule : rule.Proper)
    (hanswer : entryIgnores fs (some ⟨.slash, dir⟩) file ⟨.slash, dir ++ names⟩ rule.text = .ok answer) :
    answer = true ↔ rule.Covers fs ⟨.slash, dir⟩ ⟨.slash, dir ++ names⟩ := by
  have hname : ∀ name ∈ names, PathName name := fun name hname => (h.askedName hfs name hname).toPathName
  have hpath : globPath (some ⟨.slash, dir⟩) file ⟨.slash, dir ++ names⟩ = "/".intercalate names := by
    rw [globPath, Option.bind_some, below?_append]
    exact Path.toString_here h.ne_nil
  rw [entryIgnores_eq_ok hanswer, hpath, globFits_iff hrule h.ne_nil (h.askedName hfs)]
  simp only [Option.some.injEq, exists_eq_left']
  cases rule with
  | below dirs =>
      obtain ⟨hdirs, hasked⟩ := hrule
      have hentry : (IgnoreRule.below dirs).text = "/".intercalate (dirs ++ "**" :: []) := by
        rw [String.intercalate_append_of_ne_nil hdirs (by simp), String.intercalate_singleton,
          String.append_assoc]
        rfl
      obtain ⟨hhere, hthere⟩ := h.not_leads_of_stars hstars hasked (by simp) hentry
      rw [or_iff_right hhere, or_iff_right hthere, IgnoreRule.Fits, IgnoreRule.Covers,
        List.prefix_append_right_inj]
  | named name =>
      have hentry : (IgnoreRule.named name).text = "/".intercalate ([] ++ "**" :: [name]) := rfl
      have hasked : ∀ other ∈ [name], AskedName other := List.forall_mem_singleton.2 hrule
      obtain ⟨hhere, hthere⟩ := h.not_leads_of_stars hstars (by simp) hasked hentry
      rw [or_iff_right hhere, or_iff_right hthere, IgnoreRule.Fits, IgnoreRule.Covers,
        List.getLast?_append_of_ne_nil _ h.ne_nil]
  | plain entry =>
      have hself : "/".intercalate names = entry →
          fs.LeadsTo ⟨.slash, dir⟩ entry ⟨.slash, dir ++ names⟩ := by
        rintro rfl
        rw [FileSystem.LeadsTo, Path.ofString_intercalate h.ne_nil hname]
        exact h.resolve_self hfs
      change fs.resolve (.ofString entry) = _ ∨ fs.LeadsTo _ entry _ ∨ "/".intercalate names = entry ↔
        fs.LeadsTo _ entry _ ∨ fs.resolve (.ofString entry) = _
      rw [or_iff_left_of_imp hself, or_comm]

end AskedFile

end Config

/-- A file below the base directory is reached without links.  If it can be told whether it is ignored, it is
exactly if one of the rules asks for it.  It can be told unless an entry cannot be resolved and no rule in
front of it asks for the file. -/
theorem Settings.ignores_iff_covers {settings : Settings} {fs : FileSystem} {dir names : List String}
    {file : String} {rules : List Config.IgnoreRule} (hfs : fs.Sound) (hstars : fs.root.Avoids "**")
    (hbase : settings.base = some ⟨.slash, dir⟩) (hfile : Config.AskedFile fs dir file names)
    (hrules : settings.config.ignoredFiles = rules.map (·.text)) (hproper : ∀ rule ∈ rules, rule.Proper) :
    (∀ answer, settings.ignores fs "" file = .ok answer →
      (answer = true ↔ ∃ rule ∈ rules, rule.Covers fs ⟨.slash, dir⟩ ⟨.slash, dir ++ names⟩)) ∧
      ∀ cause, settings.ignores fs "" file = .error cause →
        ∃ front rule rest, rules = front ++ rule :: rest ∧
          (∀ earlier ∈ front, ¬ earlier.Covers fs ⟨.slash, dir⟩ ⟨.slash, dir ++ names⟩) ∧
            Config.Unresolvable fs (some ⟨.slash, dir⟩) rule.text cause := by
  have hasked : settings.ignores fs "" file = (rules.map (·.text)).anyM
      (Config.entryIgnores fs (some ⟨.slash, dir⟩) file ⟨.slash, dir ++ names⟩) := by
    have hvariable : settings.config.ignoresVariable "" = false := rfl
    rw [Settings.ignores, hvariable, if_neg Bool.false_ne_true, hbase,
      Config.ignoresFile_eq_anyM hfile.denotes, hrules]
  rw [hasked]
  constructor
  · intro answer hanswer
    cases answer with
    | true =>
        obtain ⟨_, hentry, hignores⟩ := exists_of_anyM_eq_ok_true hanswer
        obtain ⟨rule, hrule, rfl⟩ := List.mem_map.1 hentry
        have hcovers := hfile.entryIgnores_iff_covers hfs hstars (hproper rule hrule) hignores
        exact iff_of_true rfl ⟨rule, hrule, hcovers.1 rfl⟩
    | false =>
        refine iff_of_false Bool.false_ne_true ?_
        rintro ⟨rule, hrule, hcovers⟩
        have hkept := anyM_eq_ok_false_iff.1 hanswer _ (List.mem_map_of_mem hrule)
        have hfalse := (hfile.entryIgnores_iff_covers hfs hstars (hproper rule hrule) hkept).2 hcovers
        cases hfalse
  · intro cause hcause
    obtain ⟨front, entry, rest, hentries, hkept, hfails⟩ := exists_append_of_anyM_eq_error hcause
    obtain ⟨earlier, later, rfl, rfl, hlater⟩ := List.map_eq_append_iff.1 hentries
    obtain ⟨rule, rest, rfl, rfl, rfl⟩ := List.map_eq_cons_iff.1 hlater
    refine ⟨earlier, rule, rest, rfl, fun other hother hcovers => ?_, Config.unresolvable_of_entryIgnores hfails⟩
    have hanswer := hkept _ (List.mem_map_of_mem hother)
    have hproper' := hproper other (List.mem_append_left _ hother)
    have hfalse := (hfile.entryIgnores_iff_covers hfs hstars hproper' hanswer).2 hcovers
    cases hfalse

/-- A project and a working directory apart from it. -/
def apartFiles : FileSystem where
  root := .dir [("project", .dir [("src", .dir [("a.js", .file .empty)])]), ("work", .dir [])]
  cwd := ["work"]

/-- A configuration of the project with one rule of each kind. -/
def apartSettings : Settings where
  config := { ignoredFiles := ["src/**", "**/b.js", "lib/c.js"] }
  base := some ⟨.slash, ["project"]⟩

/-- The rules of this configuration. -/
def apartRules : List Config.IgnoreRule := [.below ["src"], .named "b.js", .plain "lib/c.js"]

theorem Settings.ignores_iff_covers_apartFiles :
    apartFiles.Sound ∧ apartFiles.root.Avoids "**" ∧
      Settings.projectOf apartFiles ⟨.slash, ["project"]⟩ = .ok ⟨.slash, ["project"]⟩ ∧
        Config.AskedFile apartFiles ["project"] "../project/src/a.js" ["src", "a.js"] ∧
          apartSettings.ignores apartFiles "" "../project/src/a.js" = .ok true ∧
            ∃ rule ∈ apartRules,
              rule.Covers apartFiles ⟨.slash, ["project"]⟩ ⟨.slash, ["project", "src", "a.js"]⟩ := by
  have hsound : apartFiles.Sound := by decide
  have hstars : apartFiles.root.Avoids "**" := by
    simp only [apartFiles, Node.Avoids, Node.AvoidsIn]
    decide
  have hfile : Config.AskedFile apartFiles ["project"] "../project/src/a.js" ["src", "a.js"] :=
    ⟨by decide +kernel, by decide +kernel, by decide, by decide⟩
  have hbase : apartSettings.base = some ⟨.slash, ["project"]⟩ := rfl
  have hrules : apartSettings.config.ignoredFiles = apartRules.map (·.text) := rfl
  have hproper : ∀ rule ∈ apartRules, rule.Proper := by
    have hsrc : ∀ name ∈ ["src"], AskedName name := by decide
    have hscript : AskedName "b.js" := by decide
    have hlibrary : IsPlainText "lib/c.js" := by decide
    simpa [apartRules, Config.IgnoreRule.Proper] using ⟨hsrc "src" (by decide), hscript, hlibrary⟩
  have hignores : apartSettings.ignores apartFiles "" "../project/src/a.js" = .ok true := by
    decide +kernel
  have hcovers := (Settings.ignores_iff_covers hsound hstars hbase hfile hrules hproper).1 true hignores
  exact ⟨hsound, hstars, by decide +kernel, hfile, hignores, hcovers.1 rfl⟩

/-- A project, and a working directory in which a link leads to itself. -/
def loopFiles : FileSystem where
  root := .dir
    [("project", .dir [("src", .dir [("a.js", .file .empty)])]), ("work", .dir [("src", .link "src")])]
  cwd := ["work"]

/-- A configuration of the project that ignores its sources. -/
def loopSettings : Settings where
  config := { ignoredFiles := ["src/**"] }
  base := some ⟨.slash, ["project"]⟩

/-- The rule asks for the file, but its entry cannot be resolved from the working directory. -/
theorem Settings.ignores_loopFiles :
    Settings.projectOf loopFiles ⟨.slash, ["project"]⟩ = .ok ⟨.slash, ["project"]⟩ ∧
      Config.AskedFile loopFiles ["project"] "/project/src/a.js" ["src", "a.js"] ∧
        (Config.IgnoreRule.below ["src"]).Proper ∧
          (Config.IgnoreRule.below ["src"]).Covers loopFiles ⟨.slash, ["project"]⟩
            ⟨.slash, ["project", "src", "a.js"]⟩ ∧
              loopSettings.config.ignoredFiles = [(Config.IgnoreRule.below ["src"]).text] ∧
                loopSettings.ignores loopFiles "" "/project/src/a.js" =
                  .error (.linkLoop "/work/src/**") := by
  have hfile : Config.AskedFile loopFiles ["project"] "/project/src/a.js" ["src", "a.js"] :=
    ⟨by decide +kernel, by decide +kernel, by decide, by decide⟩
  have hsrc : ∀ name ∈ ["src"], AskedName name := by decide
  exact ⟨by decide +kernel, hfile, ⟨by decide, hsrc⟩, ⟨["a.js"], rfl⟩, rfl, by decide +kernel⟩

end EnvAudit
