import EnvAudit.Proofs.FileSystem.Put

/-!
# Writing files

Writing changes the file at one place.  All paths lead to the places to which they led before, and
there is no path to another place that reads something else afterwards.
-/

namespace EnvAudit.FileSystem

variable {fs fs' : FileSystem} {p q : Path} {root root' : Node} {bytes : ByteArray}
variable {names here place : List String} {links : Nat}

/-! ## Where paths lead -/

/-- The place of an answer, if it is none that refuses. -/
def placeOf (answer : Except FileFault (List String × Option Node)) : Option (List String) :=
  answer.toOption.map (·.1)

/-- The place that a path leads to. -/
def place? (fs : FileSystem) (p : Path) : Option (List String) := placeOf (fs.locate p)

/-- What stands at a path. -/
def node? (fs : FileSystem) (p : Path) : Option Node := (fs.place? p).bind fs.root.at?

/-- The bytes of the file at a path. -/
def bytes? (fs : FileSystem) (p : Path) : Option ByteArray := (fs.read p).toOption

theorem placeOf_eq_some_iff {answer : Except FileFault (List String × Option Node)} :
    placeOf answer = some place ↔ ∃ found, answer = .ok (place, found) := by
  cases answer <;> simp [placeOf, Except.toOption, Prod.ext_iff]

theorem place?_eq_some_iff :
    fs.place? p = some place ↔ fs.locate p = .ok (place, fs.root.at? place) := by
  rw [place?, placeOf_eq_some_iff]
  constructor
  · rintro ⟨found, hfound⟩
    rw [hfound, locate_at? hfound]
  · exact fun h => ⟨_, h⟩

theorem node?_eq_some_iff {node : Node} : fs.node? p = some node ↔ fs.stat p = .ok node := by
  rw [stat_eq_ok_iff, node?, Option.bind_eq_some_iff]
  constructor
  · rintro ⟨place, hplace, hnode⟩
    exact ⟨place, hnode ▸ place?_eq_some_iff.1 hplace⟩
  · rintro ⟨place, hlocate⟩
    exact ⟨place, placeOf_eq_some_iff.2 ⟨_, hlocate⟩, locate_at? hlocate⟩

theorem node?_eq (fs : FileSystem) (p : Path) : fs.node? p = (fs.stat p).toOption := by
  apply Option.ext
  intro node
  rw [node?_eq_some_iff]
  cases fs.stat p <;> simp [Except.toOption]

theorem bytes?_eq_some_iff_read : fs.bytes? p = some bytes ↔ fs.read p = .ok bytes := by
  rw [bytes?]
  cases fs.read p <;> simp [Except.toOption]

theorem bytes?_eq_some_iff :
    fs.bytes? p = some bytes ↔ hasNull p = false ∧ fs.node? p = some (.file bytes) := by
  rw [bytes?, node?_eq_some_iff, read]
  split
  · simp_all [Except.toOption]
  · split <;> simp_all [Except.toOption]

/-- The fault of an answer that leaves open what stands at a path. -/
def refusalOf : Except FileFault (List String × Option Node) → Option FileFault
  | .ok _ => none
  | .error fault => if fault.meansAbsent then none else some fault

/-- Why the system does not tell what stands at a path, if it does not. -/
def refusal? (fs : FileSystem) (p : Path) : Option FileFault :=
  if hasNull p then none else refusalOf (fs.locate p)

/-- The question about a path is refused, or it is answered by what stands there. -/
theorem tells_eq (fs : FileSystem) (test : Node → Bool) (p : Path) :
    fs.tells test p = match fs.refusal? p with
      | some fault => .error (.fault fault p.toString)
      | none => .ok (!hasNull p && (fs.node? p).any test) := by
  rw [tells, probe, refusal?, node?_eq, stat]
  split
  · rename_i hnull
    simp [hnull]
    rfl
  · rename_i hnull
    rw [Bool.not_eq_true] at hnull
    rw [hnull]
    cases fs.locate p with
    | ok found =>
        obtain ⟨place, node | node⟩ := found <;> rfl
    | error fault => cases fault <;> rfl

theorem tells_eq_ok_iff {test : Node → Bool} {b : Bool} :
    fs.tells test p = .ok b ↔
      fs.refusal? p = none ∧ (!hasNull p && (fs.node? p).any test) = b := by
  rw [tells_eq]
  cases fs.refusal? p <;> simp

theorem refusal?_of_node? {node : Node} (h : fs.node? p = some node) : fs.refusal? p = none := by
  obtain ⟨place, hplace, hat⟩ := Option.bind_eq_some_iff.1 h
  rw [refusal?, place?_eq_some_iff.1 hplace]
  split <;> rfl

theorem tells_eq_true_iff {test : Node → Bool} :
    fs.tells test p = .ok true ↔
      hasNull p = false ∧ ∃ node, fs.node? p = some node ∧ test node = true := by
  rw [tells_eq_ok_iff]
  constructor
  · rintro ⟨-, h⟩
    simpa [Option.any_eq_true] using h
  · rintro ⟨hnull, node, hnode, htest⟩
    exact ⟨refusal?_of_node? hnode, by simp [hnull, hnode, htest]⟩

theorem exists?_eq_true_iff :
    fs.exists? p = .ok true ↔ hasNull p = false ∧ (fs.node? p).isSome := by
  rw [exists?, tells_eq_true_iff, Option.isSome_iff_exists]
  simp only [and_true]

/-! ## Paths in a tree in which files were written -/

/-- What can be seen of an answer without knowing what stands at its place, nor whether a name on the
way is missing or names a file. -/
structure Coarse {α : Type} (view : Except FileFault (List String × Option Node) → α) : Prop where
  place : ∀ place found found', view (.ok (place, found)) = view (.ok (place, found'))
  missing : view (.error .notFound) = view (.error .notDirectory)

theorem coarse_placeOf : Coarse placeOf := ⟨fun _ _ _ => rfl, rfl⟩

theorem coarse_refusalOf : Coarse refusalOf := ⟨fun _ _ _ => rfl, rfl⟩

section View

variable {α : Type} {view : Except FileFault (List String × Option Node) → α}

theorem view_walk (hview : Coarse view) (h : root.Evolves root')
    {onLink onLink' : List String → String → List String →
      Except FileFault (List String × Option Node)}
    (hlink : ∀ here target rest, view (onLink' here target rest) = view (onLink here target rest)) :
    view (walk root' onLink' here names) = view (walk root onLink here names) := by
  induction names generalizing here with
  | nil => exact hview.place _ _ _
  | cons name rest ih =>
      unfold walk
      split
      · exact ih
      split
      · exact ih
      split
      · rfl
      have hbecomes := h (here ++ [name])
      generalize root.at? (here ++ [name]) = found at hbecomes ⊢
      generalize root'.at? (here ++ [name]) = found' at hbecomes ⊢
      cases hbecomes with
      | same =>
          cases found with
          | none => rfl
          | some node =>
              cases node with
              | dir _ => exact ih
              | link target => exact hlink here target rest
              | file _ | locked => rfl
      | dir => exact ih
      | made =>
          cases rest with
          | nil => exact hview.place _ _ _
          | cons => exact hview.missing.symm
      | changed =>
          cases rest with
          | nil => exact hview.place _ _ _
          | cons => rfl

theorem view_follow (hview : Coarse view) (h : root.Evolves root') :
    view (follow root' links here names) = view (follow root links here names) := by
  induction links generalizing here names with
  | zero => exact view_walk hview h fun _ _ _ => rfl
  | succ links ih => exact view_walk hview h fun _ _ _ => ih

theorem view_locate (hview : Coarse view) (h : fs.root.Evolves fs'.root) (hcwd : fs'.cwd = fs.cwd)
    (p : Path) : view (fs'.locate p) = view (fs.locate p) := by
  rw [locate, locate, locateSpelled, locateSpelled, hcwd]
  split
  · rfl
  · exact view_follow hview h

end View

/-- Writing files redirects no path. -/
theorem place?_eq_of_evolves (h : fs.root.Evolves fs'.root) (hcwd : fs'.cwd = fs.cwd) (p : Path) :
    fs'.place? p = fs.place? p :=
  view_locate coarse_placeOf h hcwd p

/-- Nor does it change which questions are refused. -/
theorem refusal?_eq_of_evolves (h : fs.root.Evolves fs'.root) (hcwd : fs'.cwd = fs.cwd) (p : Path) :
    fs'.refusal? p = fs.refusal? p := by
  rw [refusal?, refusal?, view_locate coarse_refusalOf h hcwd]

/-! ## Where a new file comes to stand -/

/-- A name that can be spelled in a path. -/
def Spelled (name : String) : Prop := '/' ∉ name.toList ∧ '\x00' ∉ name.toList

theorem spelled_steps {spelling : String} (h : '\x00' ∉ spelling.toList) :
    ∀ name ∈ steps spelling, Spelled name := by
  intro name hname
  obtain ⟨piece, hpiece, rfl⟩ := List.mem_map.1 hname
  rw [Spelled, String.toList_ofList]
  exact ⟨fun hslash => (Text.mem_of_mem_splitOn hpiece hslash).1 rfl,
    fun hnull => h (Text.mem_of_mem_splitOn hpiece hnull).2⟩

/-- Something can be put at a place: its last name is valid, and there is a directory for it. -/
def HasParent (root : Node) (place : List String) : Prop :=
  ∃ parent name entries, place = parent ++ [name] ∧
    root.at? parent = some (.dir entries) ∧ ValidName name

theorem at?_dropLast {entries : List (String × Node)} (h : root.at? here = some (.dir entries)) :
    ∃ entries', root.at? here.dropLast = some (.dir entries') := by
  rcases List.eq_nil_or_concat here with rfl | ⟨front, name, rfl⟩
  · exact ⟨entries, h⟩
  · rw [List.concat_eq_append] at h ⊢
    rw [List.dropLast_concat]
    exact Node.isDir_of_at?_concat h

theorem hasParent_of_walk
    {onLink : List String → String → List String → Except FileFault (List String × Option Node)}
    {entries : List (String × Node)}
    (hlink : ∀ here target rest, (∃ entries, root.at? here = some (.dir entries)) →
      '\x00' ∉ target.toList → (∀ name ∈ rest, Spelled name) →
        onLink here target rest = .ok (place, none) → HasParent root place)
    (hroot : root.WellFormed) (hhere : root.at? here = some (.dir entries))
    (hnames : ∀ name ∈ names, Spelled name)
    (h : walk root onLink here names = .ok (place, none)) : HasParent root place := by
  induction names generalizing here entries with
  | nil =>
      rw [walk, hhere] at h
      cases h
  | cons name rest ih =>
      have hrest : ∀ other ∈ rest, Spelled other := fun other hother =>
        hnames other (List.mem_cons_of_mem name hother)
      unfold walk at h
      split at h
      · exact ih hhere hrest h
      rename_i hdot
      split at h
      · obtain ⟨entries', hup⟩ := at?_dropLast hhere
        exact ih hup hrest h
      rename_i hup
      split at h
      · cases h
      rename_i hfits
      split at h
      · split at h
        · have hname := hnames name List.mem_cons_self
          simp only [Except.ok.injEq, Prod.mk.injEq] at h
          rw [not_or] at hdot
          have hvalid : ValidName name :=
            ⟨hdot.1, hdot.2, hup, hname.1, hname.2, Nat.not_lt.1 hfits⟩
          exact ⟨here, name, entries, h.1.symm, hhere, hvalid⟩
        · cases h
      · exact ih ‹_› hrest h
      · rename_i target hat
        exact hlink here target rest ⟨entries, hhere⟩ (hroot.at? hat).1 hrest h
      · split at h <;> simp at h

theorem hasParent_of_follow {entries : List (String × Node)} (hroot : root.WellFormed)
    (hhere : root.at? here = some (.dir entries)) (hnames : ∀ name ∈ names, Spelled name)
    (h : follow root links here names = .ok (place, none)) : HasParent root place := by
  induction links generalizing here names entries with
  | zero =>
      refine hasParent_of_walk ?_ hroot hhere hnames h
      intro _ _ _ _ _ _ hfollow
      cases hfollow
  | succ links ih =>
      refine hasParent_of_walk ?_ hroot hhere hnames h
      rintro here' target rest ⟨inner, hinner⟩ htarget hrest hfollow
      have hsteps : ∀ name ∈ steps target ++ rest, Spelled name := by
        intro name hname
        exact (List.mem_append.1 hname).elim (spelled_steps htarget name) (hrest name)
      split at hfollow
      · obtain ⟨others, hothers⟩ : ∃ others, root.at? [] = some (.dir others) := by
          cases here' with
          | nil => exact ⟨inner, hinner⟩
          | cons first here' =>
              cases root with
              | dir others => exact ⟨others, rfl⟩
              | file _ | locked | link _ => cases hinner
        exact ih hothers hsteps hfollow
      · exact ih hinner hsteps hfollow

/-! ## Sound file systems -/

/-- The tree is well-formed and there is a working directory in it. -/
structure Sound (fs : FileSystem) : Prop where
  wellFormed : fs.root.WellFormed
  hasCwd : ∃ entries, fs.root.at? fs.cwd = some (.dir entries)

instance (fs : FileSystem) : Decidable fs.Sound :=
  have : Decidable (∃ entries, fs.root.at? fs.cwd = some (.dir entries)) :=
    match fs.root.at? fs.cwd with
    | some (.dir entries) => isTrue ⟨entries, rfl⟩
    | none | some (.file _) | some .locked | some (.link _) => isFalse nofun
  decidable_of_iff (fs.root.WellFormed ∧ ∃ entries, fs.root.at? fs.cwd = some (.dir entries))
    ⟨fun h => ⟨h.1, h.2⟩, fun h => ⟨h.wellFormed, h.hasCwd⟩⟩

theorem Sound.isDir_root (h : fs.Sound) : ∃ entries, fs.root.at? [] = some (.dir entries) := by
  obtain ⟨entries, hentries⟩ := h.hasCwd
  generalize fs.cwd = names at hentries
  cases names with
  | nil => exact ⟨entries, hentries⟩
  | cons first names =>
      cases hroot : fs.root with
      | dir others => exact ⟨others, rfl⟩
      | file _ | locked | link _ =>
          rw [hroot] at hentries
          cases hentries

theorem notMem_toString (h : hasNull p = false) : '\x00' ∉ p.toString.toList := by
  obtain ⟨start, parts⟩ := p
  have hparts : '\x00' ∉ ("/".intercalate parts).toList := by
    rw [hasNull, List.any_eq_false] at h
    have hslash : "/".toList = ['/'] := rfl
    rw [String.toList_intercalate, hslash]
    induction parts with
    | nil => simp
    | cons part parts ih =>
        have hpart : '\x00' ∉ part.toList := by simpa using h part List.mem_cons_self
        have hrest := ih fun other hother => h other (List.mem_cons_of_mem part hother)
        rw [List.map_cons]
        by_cases hnil : parts.map String.toList = []
        · rwa [hnil, List.intercalate_singleton]
        · rw [List.intercalate_cons_of_ne_nil hnil]
          simpa using ⟨hpart, hrest⟩
  have hspelling : '\x00' ∉ start.spelling.toList := by cases start <;> decide
  rw [Path.toString]
  split
  · decide
  · rw [String.toList_append, List.mem_append, not_or]
    exact ⟨hspelling, hparts⟩

/-- Where a path leads to nothing, something can be put. -/
theorem Sound.hasParent (h : fs.Sound) (hnull : hasNull p = false)
    (hlocate : fs.locate p = .ok (place, none)) : HasParent fs.root place := by
  rw [locate, locateSpelled] at hlocate
  split at hlocate
  · cases hlocate
  · have hsteps := spelled_steps (notMem_toString hnull)
    split at hlocate
    · obtain ⟨entries, hentries⟩ := h.isDir_root
      exact hasParent_of_follow h.wellFormed hentries hsteps hlocate
    · obtain ⟨entries, hentries⟩ := h.hasCwd
      exact hasParent_of_follow h.wellFormed hentries hsteps hlocate

/-- A path leads to a place where a file stands or can be put. -/
structure Writable (fs : FileSystem) (p : Path) (place : List String) : Prop where
  noNull : hasNull p = false
  leads : fs.place? p = some place
  free : ∀ found, fs.root.at? place = some found → ∃ bytes, found = .file bytes

/-- Where a file is read, it can be written. -/
theorem exists_writable_of_bytes? (h : fs.bytes? p = some bytes) : ∃ place, fs.Writable p place := by
  obtain ⟨hnull, hnode⟩ := bytes?_eq_some_iff.1 h
  obtain ⟨place, hplace, hat⟩ := Option.bind_eq_some_iff.1 hnode
  refine ⟨place, hnull, hplace, fun found hfound => ⟨bytes, ?_⟩⟩
  rw [hat, Option.some.injEq] at hfound
  exact hfound.symm

/-- A file with the bytes has been put where a path leads. -/
def Wrote (fs : FileSystem) (p : Path) (bytes : ByteArray) (fs' : FileSystem) : Prop :=
  ∃ place, fs.Writable p place ∧ fs' = { fs with root := Node.put (.file bytes) place fs.root }

theorem Writable.takes (h : fs.Writable p place) (hfs : fs.Sound) :
    ∃ parent name, place = parent ++ [name] ∧ fs.root.Takes parent name ∧ ValidName name := by
  have hlocate := place?_eq_some_iff.1 h.leads
  cases hfound : fs.root.at? place with
  | none =>
      rw [hfound] at hlocate
      obtain ⟨parent, name, entries, rfl, hparent, hname⟩ := hfs.hasParent h.noNull hlocate
      exact ⟨parent, name, rfl, ⟨⟨entries, hparent⟩, h.free⟩, hname⟩
  | some found =>
      obtain ⟨bytes, rfl⟩ := h.free found hfound
      have hvalid := (hfs.wellFormed.at? hfound).2
      rcases List.eq_nil_or_concat place with rfl | ⟨parent, name, rfl⟩
      · obtain ⟨entries, hentries⟩ := hfs.isDir_root
        rw [hentries] at hfound
        cases hfound
      · rw [List.concat_eq_append] at hfound hvalid ⊢
        have hfree : ∀ other, fs.root.at? (parent ++ [name]) = some other →
            ∃ bytes, other = .file bytes := by
          intro other hother
          rw [hfound, Option.some.injEq] at hother
          exact ⟨bytes, hother.symm⟩
        exact ⟨parent, name, rfl, ⟨Node.isDir_of_at?_concat hfound, hfree⟩, hvalid name (by simp)⟩

/-! ## After a write -/

theorem Wrote.cwd_eq (h : fs.Wrote p bytes fs') : fs'.cwd = fs.cwd := by
  obtain ⟨place, -, rfl⟩ := h
  rfl

theorem Wrote.evolves (h : fs.Wrote p bytes fs') (hfs : fs.Sound) :
    fs.root.Evolves fs'.root := by
  obtain ⟨place, hplace, rfl⟩ := h
  obtain ⟨parent, name, rfl, htakes, -⟩ := hplace.takes hfs
  exact htakes.evolves

theorem isDir_of_becomes {found found' : Option Node} (h : Node.Becomes found found')
    {entries : List (String × Node)} (hdir : found = some (.dir entries)) :
    ∃ entries', found' = some (.dir entries') := by
  cases h with
  | same => exact ⟨entries, hdir⟩
  | dir _ entries' => exact ⟨entries', rfl⟩
  | made => cases hdir
  | changed => cases hdir

theorem Wrote.sound (h : fs.Wrote p bytes fs') (hfs : fs.Sound) : fs'.Sound where
  wellFormed := by
    obtain ⟨place, hplace, rfl⟩ := h
    obtain ⟨parent, name, rfl, htakes, hname⟩ := hplace.takes hfs
    exact hfs.wellFormed.put hname htakes
  hasCwd := by
    obtain ⟨entries, hentries⟩ := hfs.hasCwd
    rw [h.cwd_eq]
    exact isDir_of_becomes (h.evolves hfs fs.cwd) hentries

theorem Wrote.place?_eq (h : fs.Wrote p bytes fs') (hfs : fs.Sound) (q : Path) :
    fs'.place? q = fs.place? q :=
  place?_eq_of_evolves (h.evolves hfs) h.cwd_eq q

/-- What was written is read. -/
theorem Wrote.bytes?_self (h : fs.Wrote p bytes fs') (hfs : fs.Sound) :
    fs'.bytes? p = some bytes := by
  have hsame := h.place?_eq hfs p
  obtain ⟨place, hplace, rfl⟩ := h
  rw [bytes?_eq_some_iff, node?, hsame, hplace.leads]
  exact ⟨hplace.noNull, Node.at?_put_self _ _ _⟩

/-- Files are as before only if what was written stood there already. -/
theorem Wrote.ne (h : fs.Wrote p bytes fs') (hnew : fs.bytes? p ≠ some bytes) : fs' ≠ fs := by
  obtain ⟨place, hplace, rfl⟩ := h
  intro heq
  have hat := Node.at?_put_self (.file bytes) place fs.root
  rw [show Node.put (.file bytes) place fs.root = fs.root from congrArg FileSystem.root heq] at hat
  apply hnew
  rw [bytes?_eq_some_iff, node?, hplace.leads]
  exact ⟨hplace.noNull, hat⟩

/-- Two paths do not lead to the same place. -/
def Apart (fs : FileSystem) (p q : Path) : Prop :=
  ∀ place, fs.place? p = some place → fs.place? q ≠ some place

instance (fs : FileSystem) (p q : Path) : Decidable (fs.Apart p q) :=
  decidable_of_iff (fs.place? p = none ∨ fs.place? p ≠ fs.place? q) <| by
    rw [Apart]
    cases fs.place? p with
    | none => simp
    | some place => simp [eq_comm]

/-- At another place the same stands as before, or a directory in both cases. -/
theorem Wrote.node?_of_apart (h : fs.Wrote p bytes fs') (hfs : fs.Sound)
    (hapart : fs.Apart p q) :
    fs'.node? q = fs.node? q ∨ ∃ entries entries', fs.node? q = some (.dir entries) ∧
      fs'.node? q = some (.dir entries') := by
  have hsame := h.place?_eq hfs q
  obtain ⟨place, hplace, rfl⟩ := h
  obtain ⟨parent, name, rfl, htakes, -⟩ := hplace.takes hfs
  rw [node?, node?, hsame]
  cases hq : fs.place? q with
  | none => exact .inl rfl
  | some other =>
      have hother : other ≠ parent ++ [name] := by
        intro heq
        exact hapart _ hplace.leads (heq ▸ hq)
      exact Node.at?_put_of_ne htakes bytes hother

/-- A path to another place reads what it read. -/
theorem Wrote.bytes?_of_apart (h : fs.Wrote p bytes fs') (hfs : fs.Sound)
    (hapart : fs.Apart p q) :
    fs'.bytes? q = fs.bytes? q := by
  apply Option.ext
  intro found
  rw [bytes?_eq_some_iff, bytes?_eq_some_iff]
  rcases h.node?_of_apart hfs hapart with hnode | ⟨_, _, hold, hnew⟩
  · rw [hnode]
  · simp [hold, hnew]

theorem Wrote.exists?_of_apart (h : fs.Wrote p bytes fs') (hfs : fs.Sound)
    (hapart : fs.Apart p q) :
    fs'.exists? q = fs.exists? q := by
  rw [exists?, exists?, tells_eq, tells_eq, refusal?_eq_of_evolves (h.evolves hfs) h.cwd_eq]
  rcases h.node?_of_apart hfs hapart with hnode | ⟨_, _, hold, hnew⟩
  · rw [hnode]
  · rw [hold, hnew]
    rfl

/-- Where a file is replaced, no path leads to anything new. -/
theorem Wrote.exists?_of_exists (h : fs.Wrote p bytes fs') (hfs : fs.Sound)
    (hp : fs.exists? p = .ok true) (q : Path) : fs'.exists? q = fs.exists? q := by
  by_cases hapart : fs.Apart p q
  · exact h.exists?_of_apart hfs hapart
  · -- Both paths lead to the file, which was there before.
    obtain ⟨place, hplace, hsame⟩ : ∃ place, fs.place? p = some place ∧ fs.place? q = some place := by
      simpa only [Apart, not_forall, not_not, exists_prop] using hapart
    have hnode : fs.node? q = fs.node? p := by rw [node?, node?, hplace, hsame]
    have hnode' : fs'.node? q = fs'.node? p := by
      rw [node?, node?, h.place?_eq hfs, h.place?_eq hfs, hplace, hsame]
    obtain ⟨node, hthere⟩ := Option.isSome_iff_exists.1 (exists?_eq_true_iff.1 hp).2
    rw [exists?, exists?, tells_eq, tells_eq, refusal?_eq_of_evolves (h.evolves hfs) h.cwd_eq, hnode,
      hnode', hthere, (bytes?_eq_some_iff.1 (h.bytes?_self hfs)).2]
    rfl

/-- What has been written is there. -/
theorem Wrote.exists?_self (h : fs.Wrote p bytes fs') (hfs : fs.Sound) :
    fs'.exists? p = .ok true := by
  obtain ⟨hnull, hnode⟩ := bytes?_eq_some_iff.1 (h.bytes?_self hfs)
  exact exists?_eq_true_iff.2 ⟨hnull, by rw [hnode]; rfl⟩

/-- Nothing has happened between two states of the files but that some were written. -/
structure Later (fs fs' : FileSystem) : Prop where
  cwd_eq : fs'.cwd = fs.cwd
  evolves : fs.root.Evolves fs'.root
  sound : fs'.Sound

theorem Later.refl (h : fs.Sound) : fs.Later fs := ⟨rfl, .refl _, h⟩

theorem Later.trans {fs'' : FileSystem} (h : fs.Later fs') (h' : fs'.Later fs'') :
    fs.Later fs'' :=
  ⟨h'.cwd_eq.trans h.cwd_eq, h.evolves.trans h'.evolves, h'.sound⟩

theorem Wrote.later (h : fs.Wrote p bytes fs') (hfs : fs.Sound) : fs.Later fs' :=
  ⟨h.cwd_eq, h.evolves hfs, h.sound hfs⟩

theorem Later.place?_eq (h : fs.Later fs') (p : Path) : fs'.place? p = fs.place? p :=
  place?_eq_of_evolves h.evolves h.cwd_eq p

theorem Later.apart (h : fs.Later fs') : fs'.Apart p q ↔ fs.Apart p q := by
  simp only [Apart, h.place?_eq]

theorem Later.refusal?_eq (h : fs.Later fs') (p : Path) : fs'.refusal? p = fs.refusal? p :=
  refusal?_eq_of_evolves h.evolves h.cwd_eq p

/-- What is there stays there. -/
theorem Later.exists? (h : fs.Later fs') (hp : fs.exists? p = .ok true) :
    fs'.exists? p = .ok true := by
  rw [exists?_eq_true_iff] at hp ⊢
  refine ⟨hp.1, ?_⟩
  rw [node?, h.place?_eq]
  have hnode := hp.2
  rw [node?] at hnode
  cases hplace : fs.place? p with
  | none =>
      rw [hplace] at hnode
      cases hnode
  | some place =>
      rw [hplace, Option.bind_some] at hnode
      rw [Option.bind_some]
      have hbecomes := h.evolves place
      generalize fs.root.at? place = found at hbecomes hnode
      generalize fs'.root.at? place = found' at hbecomes ⊢
      cases hbecomes with
      | same => exact hnode
      | dir => rfl
      | made => rfl
      | changed => rfl

/-- What is not there was not there before. -/
theorem Later.exists?_eq_false (h : fs.Later fs') (hp : fs'.exists? p = .ok false) :
    fs.exists? p = .ok false := by
  have htold : fs.refusal? p = none := by
    rw [← h.refusal?_eq]
    exact (tells_eq_ok_iff.1 hp).1
  cases hbefore : fs.exists? p with
  | error cause =>
      rw [FileSystem.exists?, tells_eq, htold] at hbefore
      cases hbefore
  | ok there =>
      cases there with
      | false => rfl
      | true => cases hp.symm.trans (h.exists? hbefore)

/-- Where a file can be written later, one could be written before. -/
theorem Later.writable (h : fs.Later fs') (hp : fs'.Writable p place) : fs.Writable p place where
  noNull := hp.noNull
  leads := (h.place?_eq p).symm.trans hp.leads
  free found hfound := by
    have hbecomes := h.evolves place
    have hfree := hp.free
    rw [hfound] at hbecomes
    generalize fs'.root.at? place = found' at hbecomes hfree
    cases hbecomes with
    | same => exact hfree found rfl
    | dir entries entries' =>
        obtain ⟨bytes, heq⟩ := hfree _ rfl
        cases heq
    | changed before => exact ⟨before, rfl⟩

theorem Writable.modifyFile_eq (h : fs.Writable p place) (change : ByteArray → ByteArray) :
    fs.modifyFile p change = .ok { fs with
      root := Node.put (.file (change ((fs.bytes? p).getD .empty))) place fs.root } := by
  have hlocate := place?_eq_some_iff.1 h.leads
  have hbytes : ∀ bytes, fs.bytes? p = some bytes ↔ fs.root.at? place = some (.file bytes) := by
    intro bytes
    rw [bytes?_eq_some_iff, node?, h.leads, Option.bind_some]
    exact and_iff_right h.noNull
  rw [modifyFile, if_neg (by simp [h.noNull]), hlocate]
  cases hfound : fs.root.at? place with
  | none =>
      have hnone : fs.bytes? p = none := by
        rw [Option.eq_none_iff_forall_ne_some]
        intro bytes hsome
        rw [hbytes, hfound] at hsome
        cases hsome
      rw [hnone]
      rfl
  | some found =>
      obtain ⟨bytes, rfl⟩ := h.free found hfound
      rw [(hbytes bytes).2 hfound]
      rfl

/-- A write is refused or puts the changed bytes where the path leads. -/
theorem modifyFile_eq_ok_iff {change : ByteArray → ByteArray} :
    fs.modifyFile p change = .ok fs' ↔
      fs.Wrote p (change ((fs.bytes? p).getD .empty)) fs' := by
  constructor
  · intro h
    have hwritable : ∃ place, fs.Writable p place := by
      rw [modifyFile] at h
      split at h
      · cases h
      rename_i hnull
      rw [Bool.not_eq_true] at hnull
      split at h
      · rename_i place hlocate
        have hat := locate_at? hlocate
        refine ⟨place, hnull, placeOf_eq_some_iff.2 ⟨_, hlocate⟩, fun found hfound => ?_⟩
        rw [hat] at hfound
        cases hfound
      · rename_i place bytes hlocate
        have hat := locate_at? hlocate
        refine ⟨place, hnull, placeOf_eq_some_iff.2 ⟨_, hlocate⟩, fun found hfound => ?_⟩
        rw [hat, Option.some.injEq] at hfound
        exact ⟨bytes, hfound.symm⟩
      · cases h
      · cases h
      · cases h
    obtain ⟨place, hplace⟩ := hwritable
    rw [hplace.modifyFile_eq, Except.ok.injEq] at h
    exact ⟨place, hplace, h.symm⟩
  · rintro ⟨place, hplace, rfl⟩
    exact hplace.modifyFile_eq change

theorem write_eq_ok_iff {text : String} :
    fs.write p text = .ok fs' ↔ fs.Wrote p text.toUTF8 fs' :=
  modifyFile_eq_ok_iff

theorem append_eq_ok_iff {text : String} :
    fs.append p text = .ok fs' ↔
      fs.Wrote p ((fs.bytes? p).getD .empty ++ text.toUTF8) fs' :=
  modifyFile_eq_ok_iff

end EnvAudit.FileSystem
