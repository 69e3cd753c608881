import EnvAudit.FileSystem.Basic
import EnvAudit.Proofs.Text.Split
import Mathlib.Data.List.Nodup

/-!
# Looking up what a tree holds

Where a path leads to a directory, the path with more names behind it leads to what these names lead
to in the tree.  Links on the way to the directory do not matter, since names of the tree that are
no links use up none of the links that a path may lead through.
-/

namespace EnvAudit

/-- A name that can stand in a directory. -/
structure ValidName (name : String) : Prop where
  ne_empty : name ≠ ""
  ne_dot : name ≠ "."
  ne_up : name ≠ ".."
  noSlash : '/' ∉ name.toList
  noNull : '\x00' ∉ name.toList
  fits : name.utf8ByteSize ≤ FileSystem.nameLimit

instance (name : String) : Decidable (ValidName name) :=
  decidable_of_iff
    (name ≠ "" ∧ name ≠ "." ∧ name ≠ ".." ∧ '/' ∉ name.toList ∧ '\x00' ∉ name.toList ∧
      name.utf8ByteSize ≤ FileSystem.nameLimit)
    ⟨fun ⟨a, b, c, d, e, f⟩ => ⟨a, b, c, d, e, f⟩, fun ⟨a, b, c, d, e, f⟩ => ⟨a, b, c, d, e, f⟩⟩

/-- A name that stays in a path when the path is read. -/
structure PathName (name : String) : Prop where
  ne_empty : name ≠ ""
  ne_dot : name ≠ "."
  noSlash : '/' ∉ name.toList

theorem ValidName.pathName {name : String} (h : ValidName name) : PathName name :=
  ⟨h.ne_empty, h.ne_dot, h.noSlash⟩

theorem pathName_up : PathName ".." := by
  constructor <;> decide

namespace Node

mutual

/-- Every directory holds valid names, each of them once, and every link has a target that can be
spelled. -/
def WellFormed : Node → Prop
  | dir entries => WellFormedIn entries
  | link target => '\x00' ∉ target.toList
  | file _ | locked => True

def WellFormedIn : List (String × Node) → Prop
  | [] => True
  | (name, node) :: rest =>
    ValidName name ∧ name ∉ rest.map (·.1) ∧ node.WellFormed ∧ WellFormedIn rest

end

mutual

def decidableWellFormed : (node : Node) → Decidable node.WellFormed
  | dir entries => decidableWellFormedIn entries
  | link target => inferInstanceAs (Decidable ('\x00' ∉ target.toList))
  | file _ | locked => isTrue trivial

def decidableWellFormedIn : (entries : List (String × Node)) → Decidable (WellFormedIn entries)
  | [] => isTrue trivial
  | (name, node) :: rest =>
    have := decidableWellFormed node
    have := decidableWellFormedIn rest
    inferInstanceAs (Decidable
      (ValidName name ∧ name ∉ rest.map (·.1) ∧ node.WellFormed ∧ WellFormedIn rest))

end

instance (node : Node) : Decidable node.WellFormed := decidableWellFormed node

instance (entries : List (String × Node)) : Decidable (WellFormedIn entries) :=
  decidableWellFormedIn entries

theorem at?_append (node : Node) (names more : List String) :
    node.at? (names ++ more) = (node.at? names).bind (·.at? more) := by
  induction names generalizing node with
  | nil => cases more <;> simp [at?]
  | cons name names ih =>
      cases node with
      | dir entries =>
          simp only [List.cons_append, at?]
          cases member? entries name with
          | none => rfl
          | some inner => exact ih inner
      | file _ | locked | link _ => rfl

theorem WellFormedIn.validName {entries : List (String × Node)} (h : WellFormedIn entries)
    {name : String} {node : Node} (hmem : (name, node) ∈ entries) : ValidName name := by
  induction entries with
  | nil => simp at hmem
  | cons entry rest ih =>
      obtain ⟨hname, -, -, hrest⟩ := h
      rcases List.mem_cons.1 hmem with rfl | hmem
      · exact hname
      · exact ih hrest hmem

theorem WellFormedIn.wellFormed {entries : List (String × Node)} (h : WellFormedIn entries)
    {name : String} {node : Node} (hmem : (name, node) ∈ entries) : node.WellFormed := by
  induction entries with
  | nil => simp at hmem
  | cons entry rest ih =>
      obtain ⟨-, -, hnode, hrest⟩ := h
      rcases List.mem_cons.1 hmem with rfl | hmem
      · exact hnode
      · exact ih hrest hmem

theorem WellFormedIn.nodup {entries : List (String × Node)} (h : WellFormedIn entries) :
    (entries.map (·.1)).Nodup := by
  induction entries with
  | nil => exact List.nodup_nil
  | cons entry rest ih =>
      obtain ⟨-, hnotMem, -, hrest⟩ := h
      exact List.nodup_cons.2 ⟨hnotMem, ih hrest⟩

/-- In a directory without repeated names each entry is found. -/
theorem WellFormedIn.member?_eq_some {entries : List (String × Node)} (h : WellFormedIn entries)
    {name : String} {node : Node} (hmem : (name, node) ∈ entries) :
    member? entries name = some node := by
  induction entries with
  | nil => simp at hmem
  | cons entry rest ih =>
      obtain ⟨-, hnotMem, -, hrest⟩ := h
      rcases List.mem_cons.1 hmem with rfl | hmem
      · simp [member?]
      · have hne : entry.1 ≠ name := by
          intro heq
          exact hnotMem (heq ▸ List.mem_map_of_mem hmem)
        have hfound := ih hrest hmem
        simpa [member?, hne] using hfound

end Node

namespace Path

/-- The path that more names lead to. -/
def descend (dir : Path) (names : List String) : Path := { dir with parts := dir.parts ++ names }

@[simp]
theorem descend_nil (dir : Path) : dir.descend [] = dir := by
  simp [descend]

@[simp]
theorem descend_singleton (dir : Path) (name : String) : dir.descend [name] = dir.child name := rfl

theorem descend_cons (dir : Path) (name : String) (names : List String) :
    dir.descend (name :: names) = (dir.child name).descend names := by
  simp [descend, child]

@[simp]
theorem name_child (dir : Path) (name : String) : (dir.child name).name = name := by
  simp [Path.name, child]

theorem descend_injective (dir : Path) : Function.Injective dir.descend := by
  intro a b h
  simpa [descend] using h

theorem hasNull_descend {dir : Path} {names : List String} (hdir : FileSystem.hasNull dir = false)
    (hnames : ∀ name ∈ names, ValidName name) : FileSystem.hasNull (dir.descend names) = false := by
  simp only [FileSystem.hasNull, descend, List.any_append, Bool.or_eq_false_iff] at hdir ⊢
  refine ⟨hdir, ?_⟩
  simpa using fun name hname => (hnames name hname).noNull

end Path

namespace FileSystem

variable {root : Node} {names more place here : List String} {entries : List (String × Node)}

/-! ## Following more names -/

/-- A way to a directory ends in the tree, or at a link that leads there.  More names behind it are
followed from the directory, or behind the link. -/
theorem walk_append_cases
    {onLink : List String → String → List String → Except FileFault (List String × Option Node)}
    (h : walk root onLink here names = .ok (place, some (.dir entries))) :
    (∀ more, walk root onLink here (names ++ more) = walk root onLink place more) ∨
      ∃ stop target rest, onLink stop target rest = .ok (place, some (.dir entries)) ∧
        ∀ more, walk root onLink here (names ++ more) = onLink stop target (rest ++ more) := by
  induction names generalizing here with
  | nil =>
      simp only [walk, Except.ok.injEq, Prod.mk.injEq] at h
      rw [h.1]
      exact .inl fun _ => rfl
  | cons name rest ih =>
      simp only [List.cons_append]
      unfold walk at h
      split at h
      · have hskip (more : List String) :
            walk root onLink here (name :: (rest ++ more)) = walk root onLink here (rest ++ more) := by
          rw [walk, if_pos ‹_›]
        simpa only [hskip] using ih h
      split at h
      · have hup (more : List String) : walk root onLink here (name :: (rest ++ more)) =
            walk root onLink here.dropLast (rest ++ more) := by
          rw [walk, if_neg ‹_›, if_pos ‹_›]
        simpa only [hup] using ih h
      split at h
      · cases h
      rename_i hdot hup hlong
      cases hat : root.at? (here ++ [name]) with
      | none =>
          rw [hat] at h
          dsimp only at h
          split at h <;> simp at h
      | some node =>
          rw [hat] at h
          cases node with
          | dir inner =>
              have hdown (more : List String) : walk root onLink here (name :: (rest ++ more)) =
                  walk root onLink (here ++ [name]) (rest ++ more) := by
                rw [walk, if_neg hdot, if_neg hup, if_neg hlong, hat]
              simpa only [hdown] using ih h
          | link target =>
              refine .inr ⟨here, target, rest, h, fun more => ?_⟩
              rw [walk, if_neg hdot, if_neg hup, if_neg hlong, hat]
          | file _ | locked =>
              dsimp only at h
              split at h <;> simp at h

/-- A way to a directory leaves some links for what lies below it. -/
theorem exists_follow_append {links : Nat}
    (h : follow root links here names = .ok (place, some (.dir entries))) :
    ∃ left, ∀ more, follow root links here (names ++ more) = follow root left place more := by
  induction links generalizing here names with
  | zero =>
      rcases walk_append_cases h with hmore | ⟨_, _, _, hlink, -⟩
      · exact ⟨0, hmore⟩
      · cases hlink
  | succ links ih =>
      rcases walk_append_cases h with hmore | ⟨stop, target, rest, hlink, hmore⟩
      · exact ⟨links + 1, hmore⟩
      · obtain ⟨left, hleft⟩ := ih hlink
        refine ⟨left, fun more => ?_⟩
        rw [follow, hmore, ← List.append_assoc]
        exact hleft more

/-- What is found stands in the tree at the place that is told. -/
theorem walk_at?
    {onLink : List String → String → List String → Except FileFault (List String × Option Node)}
    {found : Option Node}
    (hlink : ∀ here target rest, onLink here target rest = .ok (place, found) →
      root.at? place = found)
    (h : walk root onLink here names = .ok (place, found)) : root.at? place = found := by
  induction names generalizing here with
  | nil =>
      simp only [walk, Except.ok.injEq, Prod.mk.injEq] at h
      rw [← h.1, h.2]
  | cons name rest ih =>
      unfold walk at h
      split at h
      · exact ih h
      split at h
      · exact ih h
      split at h
      · cases h
      split at h
      · split at h
        · simp only [Except.ok.injEq, Prod.mk.injEq] at h
          rwa [← h.1, ← h.2]
        · cases h
      · exact ih h
      · exact hlink _ _ _ h
      · split at h
        · simp only [Except.ok.injEq, Prod.mk.injEq] at h
          rwa [← h.1, ← h.2]
        · cases h

theorem follow_at? {links : Nat} {found : Option Node}
    (h : follow root links here names = .ok (place, found)) : root.at? place = found := by
  induction links generalizing here names with
  | zero => exact walk_at? (fun _ _ _ hlink => by cases hlink) h
  | succ links ih => exact walk_at? (fun _ _ _ hlink => ih hlink) h

/-- Names that stand in the tree are followed without any links. -/
theorem walk_eq_at?
    {onLink : List String → String → List String → Except FileFault (List String × Option Node)}
    {node : Node} (hnode : root.at? (here ++ names) = some node) (hlink : ∀ t, node ≠ .link t)
    (hnames : ∀ name ∈ names, ValidName name) :
    walk root onLink here names = .ok (here ++ names, some node) := by
  induction names generalizing here with
  | nil =>
      rw [List.append_nil] at hnode ⊢
      rw [walk, hnode]
  | cons name rest ih =>
      have hname := hnames name List.mem_cons_self
      have hsplit : here ++ name :: rest = (here ++ [name]) ++ rest := by simp
      have hrest := hnode
      rw [hsplit] at hrest
      have ih := ih hrest fun n hn => hnames n (List.mem_cons_of_mem name hn)
      unfold walk
      rw [if_neg (not_or.2 ⟨hname.ne_empty, hname.ne_dot⟩), if_neg hname.ne_up,
        if_neg (Nat.not_lt.2 hname.fits), hsplit]
      rw [Node.at?_append, Option.bind_eq_some_iff] at hrest
      obtain ⟨first, hfirst, hinner⟩ := hrest
      cases first with
      | dir _ => simpa only [hfirst] using ih
      | link target =>
          cases rest with
          | nil =>
              simp only [Node.at?, Option.some.injEq] at hinner
              exact absurd hinner.symm (hlink target)
          | cons next rest => simp [Node.at?] at hinner
      | file _ | locked =>
          cases rest with
          | nil =>
              rw [hnode]
              simp only [Node.at?, Option.some.injEq] at hinner
              simp [← hinner]
          | cons next rest => simp [Node.at?] at hinner

theorem follow_eq_at? {node : Node} (hnode : root.at? (here ++ names) = some node)
    (hlink : ∀ t, node ≠ .link t) (hnames : ∀ name ∈ names, ValidName name) (links : Nat) :
    follow root links here names = .ok (here ++ names, some node) := by
  cases links <;> exact walk_eq_at? hnode hlink hnames

/-! ## The spelling of more names -/

theorem steps_append (a b : String) : steps (a ++ "/" ++ b) = steps a ++ steps b := by
  have hslash : "/".toList = ['/'] := rfl
  simp only [steps, String.toList_append, hslash, List.append_assoc, List.singleton_append,
    Text.splitOn_append_cons, List.map_append]

theorem steps_intercalate (hne : names ≠ []) (hnames : ∀ name ∈ names, PathName name) :
    steps ("/".intercalate names) = names := by
  have hslash : "/".toList = ['/'] := rfl
  have hsplit : Text.splitOn '/' (['/'].intercalate (names.map String.toList)) =
      names.map String.toList := by
    apply Text.splitOn_intercalate (by simpa using hne)
    simpa using fun name hname => (hnames name hname).noSlash
  rw [steps, String.toList_intercalate, hslash, hsplit, List.map_map]
  simp [Function.comp_def]

theorem slash_startsWith_slash : "/".startsWith "/" = true :=
  String.startsWith_string_iff.2 ⟨[], rfl⟩

theorem slashes_startsWith_slash : "//".startsWith "/" = true :=
  String.startsWith_string_iff.2 ⟨['/'], rfl⟩

theorem startsWith_slash_append {a : String} (ha : a ≠ "") (b : String) :
    (a ++ b).startsWith "/" = a.startsWith "/" := by
  rw [Bool.eq_iff_iff, String.startsWith_string_iff, String.startsWith_string_iff,
    String.toList_append]
  obtain ⟨c, rest, hcons⟩ := List.exists_cons_of_ne_nil (String.toList_eq_nil_iff.not.2 ha)
  simp [hcons, List.cons_prefix_cons]

theorem follow_skip {name : String} (hname : name = "" ∨ name = ".") (links : Nat) :
    follow root links here (name :: names) = follow root links here names := by
  cases links <;> (unfold follow; rw [walk, if_pos hname])

theorem follow_nil (links : Nat) : follow root links here [] = .ok (here, root.at? here) := by
  cases links <;> rfl

/-- Names are spelled behind a path that has names itself. -/
theorem toString_descend {dir : Path} (hparts : dir.parts ≠ []) (hne : names ≠ []) :
    (dir.descend names).toString = dir.toString ++ "/" ++ "/".intercalate names := by
  obtain ⟨start, parts⟩ := dir
  obtain ⟨first, more, rfl⟩ := List.exists_cons_of_ne_nil hparts
  cases start <;>
    simp only [Path.toString, Path.descend, List.cons_append, String.append_assoc,
      ← String.intercalate_append_of_ne_nil (List.cons_ne_nil first more) hne]

/-- Names are spelled behind a path without names, with nothing between them. -/
theorem toString_descend_of_no_parts {dir : Path} (hparts : dir.parts = []) (hne : names ≠ []) :
    (dir.descend names).toString = dir.root.spelling ++ "/".intercalate names := by
  obtain ⟨start, parts⟩ := dir
  obtain ⟨first, more, rfl⟩ := List.exists_cons_of_ne_nil hne
  cases hparts
  cases start <;> rfl

theorem intercalate_not_startsWith_slash (hne : names ≠ [])
    (hnames : ∀ name ∈ names, PathName name) :
    ("/".intercalate names).startsWith "/" = false := by
  by_contra h
  rw [Bool.not_eq_false, String.startsWith_string_iff] at h
  obtain ⟨rest, hrest⟩ := h
  have hsteps := steps_intercalate hne hnames
  have hempty : "" ∈ steps ("/".intercalate names) := by
    rw [steps, ← hrest, show "/".toList ++ rest = '/' :: rest from rfl, Text.splitOn_cons_self]
    exact List.mem_cons_self
  rw [hsteps] at hempty
  exact (hnames "" hempty).ne_empty rfl

theorem intercalate_ne_empty (hne : names ≠ []) (hnames : ∀ name ∈ names, PathName name) :
    "/".intercalate names ≠ "" := by
  intro h
  have hsteps := steps_intercalate hne hnames
  rw [h, show steps "" = [""] from rfl] at hsteps
  exact (hnames "" (hsteps ▸ List.mem_singleton_self "")).ne_empty rfl

/-- The directory where a path begins. -/
def begins (fs : FileSystem) (start : PathRoot) : List String :=
  if start = .here then fs.cwd else []

theorem locate_of_no_parts (fs : FileSystem) (start : PathRoot) :
    fs.locate ⟨start, []⟩ = .ok (fs.begins start, fs.root.at? (fs.begins start)) := by
  have hdot : ¬ ".".startsWith "/" = true := by rw [String.startsWith_string_iff]; decide
  cases start with
  | here =>
      have hspelling : Path.toString ⟨.here, []⟩ = "." := rfl
      rw [locate, hspelling, locateSpelled, if_neg (by decide), if_neg hdot,
        show steps "." = ["."] from rfl, follow_skip (.inr rfl), follow_nil]
      rfl
  | slash =>
      have hspelling : Path.toString ⟨.slash, []⟩ = "/" := by decide
      rw [locate, hspelling, locateSpelled, if_neg (by decide), if_pos slash_startsWith_slash,
        show steps "/" = ["", ""] from rfl, follow_skip (.inl rfl), follow_skip (.inl rfl),
        follow_nil]
      rfl
  | twoSlashes =>
      have hspelling : Path.toString ⟨.twoSlashes, []⟩ = "//" := by decide
      rw [locate, hspelling, locateSpelled, if_neg (by decide), if_pos slashes_startsWith_slash,
        show steps "//" = ["", "", ""] from rfl, follow_skip (.inl rfl), follow_skip (.inl rfl),
        follow_skip (.inl rfl), follow_nil]
      rfl

theorem locate_descend_of_no_parts (fs : FileSystem) (start : PathRoot) (hne : names ≠ [])
    (hnames : ∀ name ∈ names, ValidName name) :
    fs.locate (Path.descend ⟨start, []⟩ names) =
      follow fs.root linkLimit (fs.begins start) names := by
  have hpath : ∀ name ∈ names, PathName name := fun name hname => (hnames name hname).pathName
  have hsteps := steps_intercalate hne hpath
  have hempty : steps "" = [""] := rfl
  rw [locate, toString_descend_of_no_parts rfl hne]
  cases start with
  | here =>
      rw [PathRoot.spelling, String.empty_append, locateSpelled,
        if_neg (intercalate_ne_empty hne hpath), intercalate_not_startsWith_slash hne hpath,
        hsteps, if_neg Bool.false_ne_true]
      rfl
  | slash =>
      have hspelled : steps ("/" ++ "/".intercalate names) = "" :: names := by
        have happend := steps_append "" ("/".intercalate names)
        rwa [String.empty_append, hempty, hsteps] at happend
      rw [PathRoot.spelling, locateSpelled, if_neg (by simp), hspelled, follow_skip (.inl rfl),
        startsWith_slash_append (by decide), if_pos slash_startsWith_slash]
      rfl
  | twoSlashes =>
      have hspelled : steps ("//" ++ "/".intercalate names) = "" :: "" :: names := by
        rw [show "//" = "/" ++ "/" from rfl, steps_append, hsteps]
        rfl
      rw [PathRoot.spelling, locateSpelled, if_neg (by simp), hspelled, follow_skip (.inl rfl),
        follow_skip (.inl rfl), startsWith_slash_append (by decide), if_pos slashes_startsWith_slash]
      rfl

/-- A path to a directory leaves some links for what lies below it. -/
theorem exists_locate_descend {fs : FileSystem} {dir : Path}
    (h : fs.locate dir = .ok (place, some (.dir entries))) :
    ∃ left, ∀ names, names ≠ [] → (∀ name ∈ names, ValidName name) →
      fs.locate (dir.descend names) = follow fs.root left place names := by
  by_cases hparts : dir.parts = []
  · obtain ⟨start, parts⟩ := dir
    cases hparts
    rw [locate_of_no_parts, Except.ok.injEq, Prod.mk.injEq] at h
    refine ⟨linkLimit, fun names hne hnames => ?_⟩
    rw [locate_descend_of_no_parts fs start hne hnames, h.1]
  · rw [locate, locateSpelled] at h
    split at h
    · cases h
    · rename_i hspelling
      obtain ⟨left, hleft⟩ := exists_follow_append h
      refine ⟨left, fun names hne hnames => ?_⟩
      rw [locate, toString_descend hparts hne, locateSpelled, if_neg (by simp), steps_append,
        steps_intercalate hne fun name hname => (hnames name hname).pathName, String.append_assoc,
        startsWith_slash_append hspelling]
      exact hleft names

/-- Where a path leads to a directory, more names behind it lead where they lead from there. -/
theorem locate_descend {fs : FileSystem} {dir : Path}
    {answer : Except FileFault (List String × Option Node)}
    (h : fs.locate dir = .ok (place, some (.dir entries))) (hne : names ≠ [])
    (hnames : ∀ name ∈ names, ValidName name)
    (hmore : ∀ links, follow fs.root links place names = answer) :
    fs.locate (dir.descend names) = answer := by
  obtain ⟨left, hleft⟩ := exists_locate_descend h
  rw [hleft names hne hnames]
  exact hmore left

theorem locate_at? {fs : FileSystem} {p : Path} {found : Option Node}
    (h : fs.locate p = .ok (place, found)) : fs.root.at? place = found := by
  rw [locate, locateSpelled] at h
  split at h
  · cases h
  · exact follow_at? h

theorem stat_eq_ok_iff {fs : FileSystem} {p : Path} {node : Node} :
    fs.stat p = .ok node ↔ ∃ place, fs.locate p = .ok (place, some node) := by
  rw [stat]
  cases hlocate : fs.locate p with
  | error fault => simp [bind, Except.bind]
  | ok there =>
      obtain ⟨place, node?⟩ := there
      cases node? <;> simp [bind, Except.bind]

/-- What stands at a path can be told. -/
theorem tells_of_stat {fs : FileSystem} {p : Path} {node : Node} (h : fs.stat p = .ok node)
    (test : Node → Bool) : fs.tells test p = .ok (!hasNull p && test node) := by
  rw [tells, probe, h]
  split
  · simp_all [Except.map, Except.mapError]
  · simp_all [Except.map, Except.mapError]

end FileSystem

/-- A path leads to a directory with the entries, below which everything is well-formed. -/
structure FileSystem.HoldsDir (fs : FileSystem) (dir : Path) (entries : List (String × Node)) :
    Prop where
  lists : fs.list dir = .ok entries
  wellFormed : (Node.dir entries).WellFormed

namespace FileSystem

variable {fs : FileSystem} {dir : Path} {names : List String} {entries : List (String × Node)}

theorem HoldsDir.hasNull (h : fs.HoldsDir dir entries) : FileSystem.hasNull dir = false := by
  have hlist := h.lists
  rw [list] at hlist
  split at hlist
  · cases hlist
  · exact eq_false_of_ne_true ‹_›

/-- Where a path begins, the directory stands to which it leads without any names. -/
theorem holdsDir_of_no_parts (start : PathRoot)
    (hdir : fs.root.at? (fs.begins start) = some (.dir entries))
    (hentries : Node.WellFormedIn entries) : fs.HoldsDir ⟨start, []⟩ entries where
  lists := by
    have hstat := stat_eq_ok_iff.2 ⟨_, hdir ▸ fs.locate_of_no_parts start⟩
    rw [list, hstat]
    rfl
  wellFormed := hentries

theorem HoldsDir.stat (h : fs.HoldsDir dir entries) : fs.stat dir = .ok (.dir entries) := by
  have hlist := h.lists
  rw [list, if_neg (by simp [h.hasNull])] at hlist
  split at hlist
  · cases hlist
    assumption
  · cases hlist
  · cases hlist

/-- What stands in the tree below a directory is found at the path of its names. -/
theorem HoldsDir.stat_descend (h : fs.HoldsDir dir entries) {node : Node}
    (hnode : (Node.dir entries).at? names = some node) (hlink : ∀ t, node ≠ .link t)
    (hnames : ∀ name ∈ names, ValidName name) : fs.stat (dir.descend names) = .ok node := by
  by_cases hne : names = []
  · rw [hne, Node.at?, Option.some.injEq] at hnode
    rw [hne, Path.descend_nil, ← hnode]
    exact h.stat
  obtain ⟨place, hplace⟩ := stat_eq_ok_iff.1 h.stat
  have hat : fs.root.at? place = some (.dir entries) := locate_at? hplace
  have hfull : fs.root.at? (place ++ names) = some node := by
    rw [Node.at?_append, hat]
    exact hnode
  exact stat_eq_ok_iff.2
    ⟨place ++ names, locate_descend hplace hne hnames (follow_eq_at? hfull hlink hnames)⟩

end FileSystem

end EnvAudit
