import EnvAudit.Proofs.FileSystem.Relative

/-!
# Paths without links

A path that leads through no link resolves by its names alone, and what it resolves to resolves to itself.
A name that no directory holds stays in what a path with this name resolves to, with all names behind it,
whatever links are in front.
-/

namespace EnvAudit

namespace Path

variable {absolute : Bool} {done names rest : List String}

/-- Two dots take away nothing of what stands behind them. -/
theorem foldUp_append_of_notMem (h : ".." ∉ rest) :
    foldUp absolute done (names ++ rest) = foldUp absolute done names ++ rest := by
  fun_induction foldUp absolute done names with
  | case1 done => exact foldUp_of_notMem h
  | case2 names habsolute ih => simpa [foldUp, habsolute] using ih
  | case3 names habsolute ih => simpa [foldUp, habsolute] using ih
  | case4 names more ih => simpa [foldUp] using ih
  | case5 names last more hlast ih => simpa [foldUp, hlast] using ih
  | case6 done name names hname ih =>
      rw [List.cons_append, foldUp, ih]
      exact hname

theorem pathName_parts_ofString (spelling : String) : ∀ name ∈ (ofString spelling).parts, PathName name := by
  intro name hname
  rw [parts_ofString, List.mem_filter, Bool.and_eq_true, bne_iff_ne, bne_iff_ne] at hname
  obtain ⟨hstep, hempty, hdot⟩ := hname
  obtain ⟨piece, hpiece, rfl⟩ := List.mem_map.1 hstep
  refine ⟨hempty, hdot, fun hslash => ?_⟩
  rw [String.toList_ofList] at hslash
  exact (Text.mem_of_mem_splitOn hpiece hslash).1 rfl

end Path

/-- A name that can stand in a resolved path. -/
structure ResolvedName (name : String) : Prop extends PathName name where
  ne_up : name ≠ ".."
  noNull : '\x00' ∉ name.toList

theorem ValidName.resolvedName {name : String} (h : ValidName name) : ResolvedName name where
  toPathName := h.pathName
  ne_up := h.ne_up
  noNull := h.noNull

namespace Node

mutual

/-- No directory holds a name. -/
def Avoids (name : String) : Node → Prop
  | dir entries => AvoidsIn name entries
  | file _ | locked | link _ => True

def AvoidsIn (name : String) : List (String × Node) → Prop
  | [] => True
  | (other, node) :: rest => other ≠ name ∧ node.Avoids name ∧ AvoidsIn name rest

end

variable {name : String}

theorem AvoidsIn.of_mem {entries : List (String × Node)} (h : AvoidsIn name entries) {item : String × Node}
    (hmem : item ∈ entries) : item.1 ≠ name ∧ item.2.Avoids name := by
  induction entries with
  | nil => cases hmem
  | cons first entries ih =>
      obtain ⟨hother, hnode, hrest⟩ := h
      rcases List.mem_cons.1 hmem with rfl | hmem
      · exact ⟨hother, hnode⟩
      · exact ih hrest hmem

theorem Avoids.at?_eq_none {node : Node} (h : node.Avoids name) (place : List String) :
    node.at? (place ++ [name]) = none := by
  induction place generalizing node with
  | nil =>
      cases node with
      | dir entries =>
          have hnone : member? entries name = none := by
            rw [member?, Option.map_eq_none_iff, List.find?_eq_none]
            intro item hitem heq
            exact (AvoidsIn.of_mem h hitem).1 (beq_iff_eq.1 heq)
          rw [List.nil_append, at?, hnone]
      | file _ | locked | link _ => rfl
  | cons first place ih =>
      cases node with
      | dir entries =>
          rw [List.cons_append, at?]
          cases hinner : member? entries first with
          | none => rfl
          | some inner =>
              obtain ⟨item, hitem, rfl⟩ := Option.map_eq_some_iff.1 hinner
              exact ih (AvoidsIn.of_mem h (List.mem_of_find?_eq_some hitem)).2
      | file _ | locked | link _ => rfl

end Node

namespace FileSystem

variable {fs : FileSystem} {p r : Path} {root : Node} {here place names : List String} {name : String}
variable {onLink : List String → String → String → List String × Bool}

/-- A place that is reached through no link. -/
structure Linkless (root : Node) (place : List String) : Prop where
  noLink : ∀ front name, front ++ [name] <+: place → ∀ target, root.at? (front ++ [name]) ≠ some (.link target)
  names : ∀ name ∈ place, ResolvedName name

namespace Linkless

theorem nil : Linkless root [] where
  noLink front name hbegins := absurd (List.prefix_nil.1 hbegins) (by simp)
  names := by simp

theorem concat (h : Linkless root here) (hname : ResolvedName name)
    (hlink : ∀ target, root.at? (here ++ [name]) ≠ some (.link target)) :
    Linkless root (here ++ [name]) where
  noLink front other hbegins := by
    rcases List.prefix_concat_iff.1 hbegins with heq | hbegins
    · rwa [heq]
    · exact h.noLink front other hbegins
  names := by
    simp only [List.forall_mem_append, List.forall_mem_singleton]
    exact ⟨h.names, hname⟩

theorem of_prefix (h : Linkless root place) (hbegins : here <+: place) : Linkless root here where
  noLink front name hfront := h.noLink front name (hfront.trans hbegins)
  names name hname := h.names name (hbegins.subset hname)

end Linkless

theorem Sound.linkless_cwd (h : fs.Sound) : Linkless fs.root fs.cwd where
  noLink front name hbegins target hlink := by
    obtain ⟨rest, hrest⟩ := hbegins
    obtain ⟨entries, hentries⟩ := h.hasCwd
    rw [← hrest, Node.at?_append, hlink] at hentries
    cases rest with
    | nil => cases hentries
    | cons => cases hentries
  names name hname := (h.validName_cwd name hname).resolvedName

/-! ## Following names -/

theorem chaseNames_cons_up : chaseNames root onLink here (".." :: names) =
    chaseNames root onLink here.dropLast names := by
  rw [chaseNames, if_neg (by decide), if_pos rfl]

theorem chaseNames_cons_of_noLink (hname : PathName name) (hup : name ≠ "..")
    (hlink : ∀ target, root.at? (here ++ [name]) ≠ some (.link target)) :
    chaseNames root onLink here (name :: names) = chaseNames root onLink (here ++ [name]) names := by
  rw [chaseNames, if_neg (by simp [hname.ne_empty, hname.ne_dot]), if_neg hup]
  split
  · rename_i target htarget
    exact absurd htarget (hlink target)
  · rfl

theorem chaseNames_cons_of_link (hname : PathName name) (hup : name ≠ "..") {target : String}
    (hlink : root.at? (here ++ [name]) = some (.link target)) :
    chaseNames root onLink here (name :: names) =
      if (onLink here name target).2 then chaseNames root onLink (onLink here name target).1 names
      else ((onLink here name target).1 ++ names, false) := by
  rw [chaseNames, if_neg (by simp [hname.ne_empty, hname.ne_dot]), if_neg hup, hlink]
  dsimp only
  rcases onLink here name target with ⟨place, _ | _⟩ <;> rfl

/-- Where no links are on the way, names are followed one by one. -/
theorem chaseNames_of_linkless (h : Linkless root (here ++ names)) :
    chaseNames root onLink here names = (here ++ names, true) := by
  induction names generalizing here with
  | nil => rw [chaseNames, List.append_nil]
  | cons name names ih =>
      have happend : here ++ name :: names = (here ++ [name]) ++ names := by simp
      have hname := h.names name (by simp)
      rw [happend] at h ⊢
      rw [chaseNames_cons_of_noLink hname.toPathName hname.ne_up
        (h.noLink here name (List.prefix_append _ names)), ih h]

/-- Follows names up to the first link. -/
def goDirect (root : Node) (here names : List String) : List String × Bool :=
  chaseNames root (fun here name _ => (here ++ [name], false)) here names

/-- No link is on the way of a path. -/
def GoesDirect (fs : FileSystem) (p : Path) : Prop :=
  (goDirect fs.root (if p.isAbsolute then [] else fs.cwd) p.parts).2 = true

instance (fs : FileSystem) (p : Path) : Decidable (fs.GoesDirect p) :=
  inferInstanceAs (Decidable (_ = true))

/-- Without links on the way it does not matter how links are followed, and the place that is reached is
reached without links. -/
theorem chaseNames_of_goDirect (hhere : Linkless root here)
    (hnames : ∀ name ∈ names, PathName name ∧ '\x00' ∉ name.toList)
    (h : (goDirect root here names).2 = true)
    (onLink : List String → String → String → List String × Bool) :
    chaseNames root onLink here names = ((goDirect root here names).1, true) ∧
      Linkless root (goDirect root here names).1 := by
  induction names generalizing here with
  | nil => exact ⟨rfl, hhere⟩
  | cons name names ih =>
      obtain ⟨⟨hname, hnull⟩, hrest⟩ := List.forall_mem_cons.1 hnames
      by_cases hup : name = ".."
      · subst hup
        rw [goDirect, chaseNames_cons_up] at h ⊢
        rw [chaseNames_cons_up]
        exact ih (hhere.of_prefix (List.dropLast_prefix here)) hrest h
      · by_cases hlink : ∃ target, root.at? (here ++ [name]) = some (.link target)
        · obtain ⟨target, hlink⟩ := hlink
          rw [goDirect, chaseNames_cons_of_link hname hup hlink] at h
          cases h
        · rw [not_exists] at hlink
          rw [goDirect, chaseNames_cons_of_noLink hname hup hlink] at h ⊢
          rw [chaseNames_cons_of_noLink hname hup hlink]
          exact ih (hhere.concat ⟨hname, hup, hnull⟩ hlink) hrest h

theorem Linkless.normalized (h : Linkless root place) :
    Path.normalized ⟨.slash, place⟩ = ⟨.slash, place⟩ :=
  Path.normalized_of_notMem .slash fun hup => (h.names _ hup).ne_up rfl

theorem hasNull_eq_false_iff : hasNull p = false ↔ ∀ name ∈ p.parts, '\x00' ∉ name.toList := by
  simp [hasNull]

/-- A path resolves to what its names lead to, unless too many links are met when that is looked up. -/
theorem resolve_eq_ok_iff :
    fs.resolve p = .ok r ↔ hasNull p = false ∧ fs.stat r ≠ .error .tooManyLinks ∧
      Path.normalized ⟨.slash, (chase fs.root chaseDepth [] (if p.isAbsolute then [] else fs.cwd)
        p.parts).1⟩ = r := by
  rw [resolve]
  cases hnull : hasNull p with
  | true => simp
  | false =>
      rw [if_neg Bool.false_ne_true, and_iff_right rfl]
      dsimp only
      split
      · rename_i hstat
        refine iff_of_false (fun h => by cases h) ?_
        rintro ⟨hends, rfl⟩
        exact hends hstat
      · rename_i hstat
        rw [Except.ok.injEq]
        refine (and_iff_right_of_imp ?_).symm
        rintro rfl
        exact hstat

/-- What a path without links resolves to is a place without links, and resolves to itself. -/
theorem Sound.resolve_of_goesDirect (h : fs.Sound) (hp : ∀ name ∈ p.parts, PathName name)
    (hdirect : fs.GoesDirect p) (hr : fs.resolve p = .ok r) :
    r.root = .slash ∧ Linkless fs.root r.parts ∧ fs.resolve r = .ok r := by
  have hstart : Linkless fs.root (if p.isAbsolute then [] else fs.cwd) := by
    split
    · exact .nil
    · exact h.linkless_cwd
  obtain ⟨onLink, hchase⟩ := exists_chase_eq fs.root chaseDepth []
  obtain ⟨hnull, hstat, hplace⟩ := resolve_eq_ok_iff.1 hr
  have hnames : ∀ name ∈ p.parts, PathName name ∧ '\x00' ∉ name.toList :=
    fun name hname => ⟨hp name hname, hasNull_eq_false_iff.1 hnull name hname⟩
  obtain ⟨hfollowed, hlinkless⟩ := chaseNames_of_goDirect hstart hnames hdirect onLink
  rw [hchase, hfollowed, hlinkless.normalized] at hplace
  obtain rfl := hplace
  refine ⟨rfl, hlinkless, resolve_eq_ok_iff.2 ⟨?_, hstat, ?_⟩⟩
  · exact hasNull_eq_false_iff.2 fun name hname => (hlinkless.names name hname).noNull
  · have hself : chaseNames fs.root onLink [] (goDirect fs.root _ p.parts).1 = (_, true) :=
      chaseNames_of_linkless hlinkless
    have habsolute : ∀ place, (⟨.slash, place⟩ : Path).isAbsolute = true := fun _ => rfl
    rw [hchase, habsolute, if_pos rfl, hself, List.nil_append, hlinkless.normalized]

/-! ## Names that no directory holds -/

theorem at?_append_eq_none (h : root.at? here = none) (names : List String) :
    root.at? (here ++ names) = none := by
  rw [Node.at?_append, h, Option.bind_none]

/-- Where nothing stands, names are followed one by one. -/
theorem chaseNames_of_at?_eq_none (h : root.at? here = none)
    (hnames : ∀ name ∈ names, PathName name ∧ name ≠ "..") :
    chaseNames root onLink here names = (here ++ names, true) := by
  induction names generalizing here with
  | nil => rw [chaseNames, List.append_nil]
  | cons name names ih =>
      obtain ⟨⟨hname, hup⟩, hrest⟩ := List.forall_mem_cons.1 hnames
      have hnext := at?_append_eq_none h [name]
      rw [chaseNames_cons_of_noLink hname hup (by simp [hnext]), ih hnext hrest, List.append_assoc,
        List.singleton_append]

/-- A name that no directory holds stays at the end of what is reached, with all names behind it. -/
theorem exists_chaseNames_eq_append (havoids : root.Avoids name)
    (hrest : ∀ other ∈ name :: names, PathName other ∧ other ≠ "..") (front : List String) :
    ∃ place, (chaseNames root onLink here (front ++ name :: names)).1 = place ++ name :: names := by
  induction front generalizing here with
  | nil =>
      obtain ⟨⟨hname, hup⟩, hnames⟩ := List.forall_mem_cons.1 hrest
      have hnone := havoids.at?_eq_none here
      refine ⟨here, ?_⟩
      rw [List.nil_append, chaseNames_cons_of_noLink hname hup (by simp [hnone]),
        chaseNames_of_at?_eq_none hnone hnames, List.append_assoc, List.singleton_append]
  | cons other front ih =>
      rw [List.cons_append, chaseNames]
      split
      · exact ih
      split
      · exact ih
      split
      · split
        · exact ih
        · rename_i place _
          exact ⟨place ++ front, (List.append_assoc ..).symm⟩
      · exact ih

/-- What a path resolves to holds the names that no directory holds. -/
theorem mem_parts_of_resolve (havoids : fs.root.Avoids name)
    (hrest : ∀ other ∈ name :: names, PathName other ∧ other ≠ "..") {front : List String}
    (hparts : p.parts = front ++ name :: names) (hr : fs.resolve p = .ok r) : name ∈ r.parts := by
  obtain ⟨onLink, hchase⟩ := exists_chase_eq fs.root chaseDepth []
  have hup : ".." ∉ name :: names := fun hmem => (hrest _ hmem).2 rfl
  obtain ⟨-, -, hreached⟩ := resolve_eq_ok_iff.1 hr
  obtain ⟨place, hplace⟩ := exists_chaseNames_eq_append havoids hrest front
  rw [hchase, hparts, hplace] at hreached
  rw [← hreached, Path.normalized, Path.foldUp_append_of_notMem hup]
  simp

end FileSystem

end EnvAudit
