import EnvAudit.Proofs.FileSystem.Resolve

/-!
# Paths as seen from a directory

A path as seen from a directory leads up to a directory above both and down from there.  Followed
from the same directory it leads back to where the path stands, and from another directory to
wherever chance has it.
-/

namespace EnvAudit

namespace Path

variable {names start goal : List String}

/-! ## Reading a path that was spelled -/

theorem rootOf_of_head_ne {text : List Char} (h : ∀ c ∈ text.head?, c ≠ '/') :
    rootOf text = .here := by
  cases text with
  | nil => rfl
  | cons c rest =>
      have hc : c ≠ '/' := h c rfl
      unfold rootOf
      split <;> simp_all

theorem rootOf_slash_of_head_ne {text : List Char} (h : ∀ c ∈ text.head?, c ≠ '/') :
    rootOf ('/' :: text) = .slash := by
  cases text with
  | nil => rfl
  | cons c rest =>
      have hc : c ≠ '/' := h c rfl
      unfold rootOf
      split <;> simp_all

theorem head_intercalate_ne (hne : names ≠ []) (h : ∀ name ∈ names, PathName name) :
    ∀ c ∈ ("/".intercalate names).toList.head?, c ≠ '/' := by
  rintro c hc rfl
  have hslash := FileSystem.intercalate_not_startsWith_slash hne h
  obtain ⟨rest, hrest⟩ := List.head?_eq_some_iff.1 hc
  have hstarts : ("/".intercalate names).startsWith "/" = true := by
    rw [String.startsWith_string_iff, hrest]
    exact ⟨rest, rfl⟩
  rw [hslash] at hstarts
  cases hstarts

theorem filter_pathNames (h : ∀ name ∈ names, PathName name) :
    names.filter (fun part => part != "" && part != ".") = names := by
  rw [List.filter_eq_self]
  intro name hname
  simp [(h name hname).ne_empty, (h name hname).ne_dot]

theorem parts_ofString (spelling : String) :
    (ofString spelling).parts =
      (FileSystem.steps spelling).filter fun part => part != "" && part != "." := rfl

theorem toString_here (hne : names ≠ []) : toString ⟨.here, names⟩ = "/".intercalate names := by
  obtain ⟨first, more, rfl⟩ := List.exists_cons_of_ne_nil hne
  exact String.empty_append

theorem toString_here_ne_empty (h : ∀ name ∈ names, PathName name) :
    toString ⟨.here, names⟩ ≠ "" := by
  by_cases hne : names = []
  · subst hne
    decide
  · rw [toString_here hne]
    exact FileSystem.intercalate_ne_empty hne h

theorem ofString_intercalate (hne : names ≠ []) (h : ∀ name ∈ names, PathName name) :
    ofString ("/".intercalate names) = ⟨.here, names⟩ := by
  have hroot : (ofString ("/".intercalate names)).root = .here :=
    rootOf_of_head_ne (head_intercalate_ne hne h)
  have hparts : (ofString ("/".intercalate names)).parts = names := by
    rw [parts_ofString, FileSystem.steps_intercalate hne h, filter_pathNames h]
  exact congrArg₂ Path.mk hroot hparts

/-- Reading a path undoes spelling it. -/
theorem ofString_toString_here (h : ∀ name ∈ names, PathName name) :
    ofString (toString ⟨.here, names⟩) = ⟨.here, names⟩ := by
  by_cases hne : names = []
  · subst hne
    decide
  · rw [toString_here hne]
    exact ofString_intercalate hne h

theorem ofString_toString_slash (h : ∀ name ∈ names, PathName name) :
    ofString (toString ⟨.slash, names⟩) = ⟨.slash, names⟩ := by
  by_cases hne : names = []
  · subst hne
    decide
  have hspelling : toString ⟨.slash, names⟩ = "/" ++ "/".intercalate names := rfl
  have hroot : (ofString ("/" ++ "/".intercalate names)).root = .slash := by
    have hslash : ("/" ++ "/".intercalate names).toList = '/' :: ("/".intercalate names).toList := by
      rw [String.toList_append]
      rfl
    change rootOf ("/" ++ "/".intercalate names).toList = .slash
    rw [hslash]
    exact rootOf_slash_of_head_ne (head_intercalate_ne hne h)
  have hparts : (ofString ("/" ++ "/".intercalate names)).parts = names := by
    have hsteps := FileSystem.steps_append "" ("/".intercalate names)
    rw [String.empty_append, FileSystem.steps_intercalate hne h] at hsteps
    rw [parts_ofString, hsteps, List.filter_append, filter_pathNames h]
    rfl
  rw [hspelling]
  exact congrArg₂ Path.mk hroot hparts

/-! ## Up and down -/

/-- From one place to another one goes up to a place above both, and down from there. -/
theorem exists_stepsBetween_eq (start goal : List String) :
    ∃ common up down, start = common ++ up ∧ goal = common ++ down ∧
      stepsBetween start goal = List.replicate up.length ".." ++ down := by
  induction start, goal using stepsBetween.induct with
  | case1 start first goal ih =>
      obtain ⟨common, up, down, rfl, rfl, hsteps⟩ := ih
      exact ⟨first :: common, up, down, rfl, rfl, by rw [stepsBetween, if_pos rfl, hsteps]⟩
  | case2 s start g goal hne =>
      refine ⟨[], s :: start, g :: goal, rfl, rfl, ?_⟩
      rw [stepsBetween, if_neg hne, List.map_const']
  | case3 start goal hnot =>
      refine ⟨[], start, goal, rfl, rfl, ?_⟩
      rw [stepsBetween, List.map_const']
      exact hnot

theorem pathName_stepsBetween (h : ∀ name ∈ goal, PathName name) :
    ∀ name ∈ stepsBetween start goal, PathName name := by
  obtain ⟨common, up, down, -, rfl, hsteps⟩ := exists_stepsBetween_eq start goal
  intro name hname
  rw [hsteps, List.mem_append] at hname
  rcases hname with hname | hname
  · rw [List.eq_of_mem_replicate hname]
    exact pathName_up
  · exact h name (List.mem_append_right common hname)

theorem normalized_of_notMem (root : PathRoot) (h : ".." ∉ names) :
    normalized ⟨root, names⟩ = ⟨root, names⟩ := by
  rw [normalized, foldUp_of_notMem h]
  rfl

/-- As it is seen from a directory, a path is the way from there to the path. -/
theorem relativeTo_eq (cwd : Path) (hstart : ∀ name ∈ start, ValidName name)
    (hgoal : ∀ name ∈ goal, ValidName name) :
    cwd.relativeTo (toString ⟨.slash, goal⟩) (toString ⟨.slash, start⟩) =
      toString ⟨.here, stepsBetween start goal⟩ := by
  have hplace : ∀ names : List String, (∀ name ∈ names, ValidName name) →
      (cwd.join (ofString (toString ⟨.slash, names⟩))).normalized = ⟨.slash, names⟩ := by
    intro names hnames
    rw [ofString_toString_slash fun name hname => (hnames name hname).pathName]
    exact normalized_of_notMem .slash fun hup => (hnames _ hup).ne_up rfl
  have hspelled : toString ⟨.slash, goal⟩ ≠ "" := by simp [toString, PathRoot.spelling]
  rw [relativeTo, if_neg hspelled, hplace goal hgoal, hplace start hstart]
  dsimp only
  split
  · rename_i hnil
    rw [hnil]
    rfl
  · rename_i hne
    exact (toString_here hne).symm

end Path

namespace FileSystem

variable {fs : FileSystem} {root node : Node} {here start goal : List String}

/-! ## Working somewhere else -/

/-- The same files with another working directory. -/
def workedFrom (fs : FileSystem) (cwd : List String) : FileSystem := { fs with cwd }

theorem root_workedFrom (fs : FileSystem) (cwd : List String) : (fs.workedFrom cwd).root = fs.root := rfl

theorem bytes?_workedFrom {p : Path} (hp : p.root = .slash) (cwd : List String) :
    (fs.workedFrom cwd).bytes? p = fs.bytes? p := by
  rw [bytes?, bytes?, read, read, stat, stat, locate_eq_follow hp, locate_eq_follow hp,
    root_workedFrom]

theorem Sound.workedFrom (h : fs.Sound) {cwd : List String} {entries : List (String × Node)}
    (hcwd : fs.root.at? cwd = some (.dir entries)) : (fs.workedFrom cwd).Sound :=
  ⟨h.wellFormed, entries, hcwd⟩

/-! ## Following a path back -/

theorem chaseNames_up {onLink : List String → String → String → List String × Bool} (count : Nat)
    (names : List String) :
    chaseNames root onLink here (List.replicate count ".." ++ names) =
      chaseNames root onLink (here.take (here.length - count)) names := by
  induction count generalizing here with
  | zero => rw [List.replicate_zero, List.nil_append, Nat.sub_zero, List.take_length]
  | succ count ih =>
      have htake : here.dropLast.take (here.dropLast.length - count) =
          here.take (here.length - (count + 1)) := by
        rw [List.dropLast_eq_take, List.take_take, List.length_take]
        congr 1
        omega
      rw [List.replicate_succ, List.cons_append, chaseNames, if_neg (by decide), if_pos rfl, ih, htake]

/-- The way from one place to another leads there, whatever stands where it begins. -/
theorem chaseNames_stepsBetween {onLink : List String → String → String → List String × Bool}
    (hat : root.at? goal = some node) (hnode : ∀ t, node ≠ .link t)
    (hgoal : ∀ name ∈ goal, ValidName name) :
    chaseNames root onLink start (Path.stepsBetween start goal) = (goal, true) := by
  obtain ⟨common, up, down, rfl, rfl, hsteps⟩ := Path.exists_stepsBetween_eq start goal
  have hcommon : (common ++ up).take ((common ++ up).length - up.length) = common := by
    rw [List.length_append, Nat.add_sub_cancel, List.take_left]
  rw [hsteps, chaseNames_up, hcommon]
  exact chaseNames_at? hat hnode fun name hname => hgoal name (List.mem_append_right common hname)

theorem exists_chase_eq (root : Node) (depth : Nat) (active : List (List String)) :
    ∃ onLink, chase root depth active = chaseNames root onLink := by
  cases depth <;> exact ⟨_, rfl⟩

/-- A path is resolved as if it were spelled behind the working directory. -/
theorem Sound.resolve_cwdPath_div (h : fs.Sound) (p : Path) :
    fs.resolve (fs.cwdPath / p) = fs.resolve p := by
  by_cases habsolute : p.isAbsolute = true
  · have hjoin : fs.cwdPath / p = p := if_pos habsolute
    rw [hjoin]
  have hjoin : fs.cwdPath / p = ⟨.slash, fs.cwd ++ p.parts⟩ := if_neg habsolute
  obtain ⟨entries, hentries⟩ := h.hasCwd
  have hnull : hasNull ⟨.slash, fs.cwd ++ p.parts⟩ = hasNull p := by
    have hcwd : fs.cwd.any (fun part => part.toList.contains '\x00') = false := by
      rw [List.any_eq_false]
      intro name hname
      simpa using (h.validName_cwd name hname).noNull
    rw [hasNull, hasNull, List.any_append, hcwd, Bool.false_or]
  have hchase : chase fs.root chaseDepth [] [] (fs.cwd ++ p.parts) =
      chase fs.root chaseDepth [] fs.cwd p.parts := by
    obtain ⟨onLink, hlinks⟩ := exists_chase_eq fs.root chaseDepth []
    have hcwd : fs.root.at? ([] ++ fs.cwd) = some (.dir entries) := hentries
    rw [hlinks]
    exact chaseNames_append hcwd (by simp) h.validName_cwd p.parts
  have hslash : (⟨.slash, fs.cwd ++ p.parts⟩ : Path).isAbsolute = true := rfl
  rw [hjoin, resolve, resolve, hnull, hslash, if_pos rfl, if_neg habsolute]
  dsimp only
  rw [hchase]

theorem root_of_resolve {p q : Path} (h : fs.resolve p = .ok q) : q.root = .slash := by
  rw [resolve] at h
  split at h
  · cases h
  dsimp only at h
  split at h
  · cases h
  · obtain rfl := Except.ok.inj h
    rfl

/-- A spelling stands for a path.  The empty spelling stands for none. -/
def Denotes (fs : FileSystem) (spelling : String) (goal : Path) : Prop :=
  spelling ≠ "" ∧ fs.resolve (.ofString spelling) = .ok goal

instance (fs : FileSystem) (spelling : String) (goal : Path) : Decidable (fs.Denotes spelling goal) :=
  inferInstanceAs (Decidable (_ ∧ _))

/-- Taken from a directory, a spelling leads to a path. -/
def LeadsTo (fs : FileSystem) (dir : Path) (spelling : String) (goal : Path) : Prop :=
  fs.resolve (dir / .ofString spelling) = .ok goal

theorem Sound.leadsTo_cwdPath_iff (h : fs.Sound) {spelling : String} {goal : Path} :
    fs.LeadsTo fs.cwdPath spelling goal ↔ fs.resolve (.ofString spelling) = .ok goal := by
  rw [LeadsTo, h.resolve_cwdPath_div]

/-- Where a spelling leads to from an absolute path, it leads to after files were written. -/
theorem LeadsTo.of_evolves {fs' : FileSystem} {dir goal : Path} {spelling : String}
    (h : fs.LeadsTo dir spelling goal) (hdir : dir.isAbsolute = true)
    (hevolves : fs.root.Evolves fs'.root) : fs'.LeadsTo dir spelling goal := by
  have habsolute : (dir / Path.ofString spelling).isAbsolute = true := by
    change (dir.join (Path.ofString spelling)).isAbsolute = true
    rw [Path.join]
    split
    · assumption
    · exact hdir
  rw [LeadsTo, resolve_eq_of_evolves hevolves (.inl habsolute)]
  exact h

/-- The way from the working directory to a place without links leads there. -/
theorem Sound.resolve_stepsBetween (h : fs.Sound) (hat : fs.root.at? goal = some node)
    (hnode : ∀ t, node ≠ .link t) :
    fs.resolve ⟨.here, Path.stepsBetween fs.cwd goal⟩ = .ok ⟨.slash, goal⟩ := by
  have hgoal := (h.wellFormed.at? hat).2
  have hnull : hasNull ⟨.here, Path.stepsBetween fs.cwd goal⟩ = false := by
    obtain ⟨common, up, down, -, heq, hbetween⟩ := Path.exists_stepsBetween_eq fs.cwd goal
    rw [hasNull, List.any_eq_false, hbetween]
    intro name hname
    rcases List.mem_append.1 hname with hname | hname
    · rw [List.eq_of_mem_replicate hname]
      decide
    · simpa using (hgoal name (heq ▸ List.mem_append_right common hname)).noNull
  have hchase : chase fs.root chaseDepth [] fs.cwd (Path.stepsBetween fs.cwd goal) = (goal, true) := by
    obtain ⟨onLink, hlinks⟩ := exists_chase_eq fs.root chaseDepth []
    rw [hlinks]
    exact chaseNames_stepsBetween hat hnode hgoal
  have hnormalized : Path.normalized ⟨.slash, goal⟩ = ⟨.slash, goal⟩ :=
    Path.normalized_of_notMem .slash fun hup => (hgoal _ hup).ne_up rfl
  have hhere : (⟨.here, Path.stepsBetween fs.cwd goal⟩ : Path).isAbsolute = false := rfl
  rw [resolve, hnull, if_neg Bool.false_ne_true, hhere, if_neg Bool.false_ne_true]
  dsimp only
  rw [hchase]
  dsimp only
  rw [hnormalized, h.stat_at? hat hnode]

end FileSystem

end EnvAudit
