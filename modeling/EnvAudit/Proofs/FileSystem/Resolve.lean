import EnvAudit.Proofs.FileSystem.Write

/-!
# Resolved paths

The working directory resolves to itself.  Resolving looks at nothing but the links of a tree and at
the names below them, so a path resolves to the same path after files were written.
-/

namespace EnvAudit

namespace Path

theorem foldUp_of_notMem {absolute : Bool} {done names : List String} (h : ".." ∉ names) :
    foldUp absolute done names = done.reverse ++ names := by
  induction names generalizing done with
  | nil => rw [foldUp, List.append_nil]
  | cons name names ih =>
      rw [List.mem_cons, not_or] at h
      rw [foldUp, ih h.2, List.reverse_cons, List.append_assoc, List.singleton_append]
      exact fun heq => h.1 heq.symm

end Path

namespace FileSystem

variable {fs : FileSystem}

theorem Sound.validName_cwd (h : fs.Sound) : ∀ name ∈ fs.cwd, ValidName name := by
  obtain ⟨entries, hentries⟩ := h.hasCwd
  exact (h.wellFormed.at? hentries).2

/-- What stands in the tree is found at the path of its names. -/
theorem Sound.stat_at? (h : fs.Sound) {names : List String} {node : Node}
    (hat : fs.root.at? names = some node) (hlink : ∀ t, node ≠ .link t) :
    fs.stat ⟨.slash, names⟩ = .ok node := by
  obtain ⟨top, htop⟩ := h.isDir_root
  have hroot : fs.HoldsDir ⟨.slash, []⟩ top :=
    holdsDir_of_no_parts .slash htop (h.wellFormed.at? htop).1
  have hbelow : (Node.dir top).at? names = some node := by
    rw [Node.at?, Option.some.injEq] at htop
    rwa [← htop]
  exact hroot.stat_descend hbelow hlink (h.wellFormed.at? hat).2

theorem Sound.stat_cwdPath (h : fs.Sound) : ∃ entries, fs.stat fs.cwdPath = .ok (.dir entries) := by
  obtain ⟨entries, hentries⟩ := h.hasCwd
  exact ⟨entries, h.stat_at? hentries (by simp)⟩

theorem Sound.normalized_cwdPath (h : fs.Sound) : fs.cwdPath.normalized = fs.cwdPath := by
  have hup : ".." ∉ fs.cwd := fun hmem => (h.validName_cwd _ hmem).ne_up rfl
  rw [cwdPath, Path.normalized, Path.foldUp_of_notMem hup]
  rfl

/-- The working directory resolves to itself. -/
theorem Sound.resolve_here (h : fs.Sound) : fs.resolve ⟨.here, []⟩ = .ok fs.cwdPath := by
  obtain ⟨entries, hstat⟩ := h.stat_cwdPath
  have hchase : chase fs.root chaseDepth [] fs.cwd [] = (fs.cwd, true) := rfl
  have hnormalized := h.normalized_cwdPath
  rw [cwdPath] at hstat hnormalized ⊢
  simp [resolve, hasNull, Path.isAbsolute, hchase, hnormalized, hstat]

theorem Sound.isFile_cwdPath (h : fs.Sound) : fs.isFile fs.cwdPath = .ok false := by
  obtain ⟨entries, hstat⟩ := h.stat_cwdPath
  rw [isFile, tells_of_stat hstat, Node.isFile, Bool.and_false]

variable {root root' : Node} {here names : List String}

/-- Names that lead through no link are kept. -/
theorem chaseNames_append {onLink : List String → String → String → List String × Bool}
    {node : Node} (hat : root.at? (here ++ names) = some node) (hnode : ∀ t, node ≠ .link t)
    (hnames : ∀ name ∈ names, ValidName name) (rest : List String) :
    chaseNames root onLink here (names ++ rest) = chaseNames root onLink (here ++ names) rest := by
  induction names generalizing here with
  | nil => rw [List.nil_append, List.append_nil]
  | cons name names ih =>
      have hname := hnames name List.mem_cons_self
      have happend : here ++ name :: names = (here ++ [name]) ++ names := by simp
      rw [happend] at hat ⊢
      rw [List.cons_append, chaseNames, if_neg (by simp [hname.ne_empty, hname.ne_dot]),
        if_neg hname.ne_up]
      have hrest := ih hat fun other hother => hnames other (List.mem_cons_of_mem name hother)
      split
      · -- A link leads no further by names alone.
        rename_i target hlink
        rw [Node.at?_append, hlink] at hat
        cases names with
        | nil => exact absurd (Option.some.inj hat).symm (hnode target)
        | cons => cases hat
      · exact hrest

theorem chaseNames_at? {onLink : List String → String → String → List String × Bool}
    {node : Node} (hat : root.at? (here ++ names) = some node) (hnode : ∀ t, node ≠ .link t)
    (hnames : ∀ name ∈ names, ValidName name) :
    chaseNames root onLink here names = (here ++ names, true) := by
  have happend : chaseNames root onLink here (names ++ []) = chaseNames root onLink (here ++ names) [] :=
    chaseNames_append hat hnode hnames []
  rwa [List.append_nil, chaseNames] at happend

/-- The spelling of the working directory resolves to it. -/
theorem Sound.resolve_cwdPath (h : fs.Sound) : fs.resolve fs.cwdPath = .ok fs.cwdPath := by
  obtain ⟨entries, hstat⟩ := h.stat_cwdPath
  obtain ⟨_, hentries⟩ := h.hasCwd
  have hnull : hasNull fs.cwdPath = false := by
    rw [hasNull, List.any_eq_false]
    intro name hname
    simpa using (h.validName_cwd name hname).noNull
  have hchase : chase fs.root chaseDepth [] [] fs.cwd = (fs.cwd, true) :=
    chaseNames_at? hentries (by simp) h.validName_cwd
  have hnormalized := h.normalized_cwdPath
  rw [cwdPath] at hstat hnormalized hnull ⊢
  simp [resolve, hnull, Path.isAbsolute, hchase, hnormalized, hstat]

/-! ## Resolving after files were written -/

theorem chaseNames_congr (h : root.Evolves root')
    {onLink onLink' : List String → String → String → List String × Bool}
    (hlink : ∀ here name target, onLink' here name target = onLink here name target) :
    chaseNames root' onLink' here names = chaseNames root onLink here names := by
  induction names generalizing here with
  | nil => rfl
  | cons name rest ih =>
      unfold chaseNames
      split
      · exact ih
      split
      · exact ih
      have hbecomes := h (here ++ [name])
      generalize root.at? (here ++ [name]) = found at hbecomes ⊢
      generalize root'.at? (here ++ [name]) = found' at hbecomes ⊢
      cases hbecomes with
      | same =>
          cases found with
          | none => exact ih
          | some node =>
              cases node with
              | link target =>
                  dsimp only
                  rw [hlink]
                  split
                  · exact ih
                  · rfl
              | dir _ | file _ | locked => exact ih
      | dir | made | changed => exact ih

theorem chase_congr (h : root.Evolves root') {depth : Nat} {active : List (List String)} :
    chase root' depth active here names = chase root depth active here names := by
  induction depth generalizing active here names with
  | zero => exact chaseNames_congr h fun _ _ _ => rfl
  | succ depth ih =>
      apply chaseNames_congr h
      intro here name target
      dsimp only
      rw [ih]

/-- Whether an answer is that there are too many links on the way. -/
def hasTooManyLinks : Except FileFault (List String × Option Node) → Bool
  | .error .tooManyLinks => true
  | _ => false

theorem coarse_hasTooManyLinks : Coarse hasTooManyLinks := ⟨fun _ _ _ => rfl, rfl⟩

theorem stat_eq_tooManyLinks_iff {p : Path} :
    fs.stat p = .error .tooManyLinks ↔ hasTooManyLinks (fs.locate p) = true := by
  rw [stat]
  rcases fs.locate p with (_ | _ | _ | _ | _ | _) | ⟨place, _ | node⟩ <;>
    simp [hasTooManyLinks, bind, Except.bind]

theorem locate_eq_follow {p : Path} (hp : p.root = .slash) :
    fs.locate p = follow fs.root linkLimit [] (steps p.toString) := by
  obtain ⟨start, parts⟩ := p
  obtain rfl : start = .slash := hp
  have hspelling : Path.toString ⟨.slash, parts⟩ = "/" ++ "/".intercalate parts := rfl
  rw [locate, hspelling, locateSpelled, if_neg (by simp), startsWith_slash_append (by decide),
    if_pos slash_startsWith_slash]

/-- Writing files makes no path resolve to another one, and where one works matters to relative paths
only. -/
theorem resolve_eq_of_evolves {fs' : FileSystem} {p : Path} (h : fs.root.Evolves fs'.root)
    (hcwd : p.isAbsolute = true ∨ fs'.cwd = fs.cwd) : fs'.resolve p = fs.resolve p := by
  have hlinks : ∀ q : Path, q.root = .slash →
      (fs'.stat q = .error .tooManyLinks ↔ fs.stat q = .error .tooManyLinks) := by
    intro q hq
    rw [stat_eq_tooManyLinks_iff, stat_eq_tooManyLinks_iff, locate_eq_follow hq,
      locate_eq_follow hq, view_follow coarse_hasTooManyLinks h]
  have hstart : (if p.isAbsolute then [] else fs'.cwd) = if p.isAbsolute then [] else fs.cwd := by
    rcases hcwd with habsolute | hsame
    · rw [if_pos habsolute, if_pos habsolute]
    · rw [hsame]
  rw [resolve, resolve]
  split
  · rfl
  · dsimp only
    rw [hstart, chase_congr h]
    generalize (chase fs.root chaseDepth [] (if p.isAbsolute then [] else fs.cwd) p.parts).1 = place
    have hresolved := hlinks (Path.normalized ⟨.slash, place⟩) rfl
    split <;> split <;> simp_all

end FileSystem

end EnvAudit
