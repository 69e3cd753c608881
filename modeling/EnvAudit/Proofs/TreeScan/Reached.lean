import EnvAudit.Proofs.FileSystem.Lookup
import EnvAudit.TreeScan

/-!
# What a walk reaches

The walk through a tree comes upon exactly the files to which names lead without passing a skipped
directory, and upon each of them once.
-/

namespace EnvAudit.TreeScan

variable {skips : String → Bool} {leadsToDir : Path → Except FileError Bool} {dir p : Path}
variable {visit : Visit} {cause : FileError}
variable {entries rest : List (String × Node)} {name : String} {names : List String}
variable {node found : Node}

/-- The names lead from a directory with the entries to a node.  On the way there are only
directories that are not skipped. -/
inductive Leads (skips : String → Bool) : List (String × Node) → List String → Node → Prop
  | entry {entries : List (String × Node)} {name : String} {node : Node}
      (h : (name, node) ∈ entries) : Leads skips entries [name] node
  | inside {entries inner : List (String × Node)} {name : String} {names : List String}
      {node : Node} (h : (name, .dir inner) ∈ entries) (hskip : skips name = false)
      (hinner : Leads skips inner names node) : Leads skips entries (name :: names) node

theorem Leads.mono (h : Leads skips entries names node) (hsub : entries ⊆ rest) :
    Leads skips rest names node := by
  cases h with
  | entry h => exact .entry (hsub h)
  | inside h hskip hinner => exact .inside (hsub h) hskip hinner

theorem not_leads_nil : ¬ Leads skips [] names node := by
  rintro (h | ⟨h, -, -⟩) <;> simp at h

theorem leads_cons_iff :
    Leads skips ((name, node) :: rest) names found ↔
      Leads skips [(name, node)] names found ∨ Leads skips rest names found := by
  constructor
  · rintro (h | ⟨h, hskip, hinner⟩)
    · rcases List.mem_cons.1 h with h | h
      · exact .inl (.entry (h ▸ List.mem_singleton_self _))
      · exact .inr (.entry h)
    · rcases List.mem_cons.1 h with h | h
      · exact .inl (.inside (h ▸ List.mem_singleton_self _) hskip hinner)
      · exact .inr (.inside h hskip hinner)
  · rintro (h | h)
    · exact h.mono (by simp)
    · exact h.mono (List.subset_cons_self _ _)

/-- From a single entry names lead to it or, if it is a directory, on from there. -/
theorem leads_singleton_iff :
    Leads skips [(name, node)] names found ↔
      (names = [name] ∧ found = node) ∨
        ∃ inner more, node = .dir inner ∧ skips name = false ∧ names = name :: more ∧
          Leads skips inner more found := by
  constructor
  · rintro (h | ⟨h, hskip, hinner⟩)
    · obtain ⟨rfl, rfl⟩ := Prod.mk.inj (List.mem_singleton.1 h)
      exact .inl ⟨rfl, rfl⟩
    · obtain ⟨rfl, rfl⟩ := Prod.mk.inj (List.mem_singleton.1 h)
      exact .inr ⟨_, _, rfl, hskip, rfl, hinner⟩
  · rintro (⟨rfl, rfl⟩ | ⟨inner, more, rfl, hskip, rfl, hinner⟩)
    · exact .entry (List.mem_singleton_self _)
    · exact .inside (List.mem_singleton_self _) hskip hinner

theorem Leads.ne_nil (h : Leads skips entries names node) : names ≠ [] := by
  cases h <;> simp

theorem Leads.validName (h : Leads skips entries names node)
    (hentries : Node.WellFormedIn entries) : ∀ name ∈ names, ValidName name := by
  induction h with
  | entry hmem =>
      intro name hname
      rw [List.mem_singleton.1 hname]
      exact hentries.validName hmem
  | inside hmem _ _ ih =>
      intro name hname
      rcases List.mem_cons.1 hname with rfl | hname
      · exact hentries.validName hmem
      · exact ih (hentries.wellFormed hmem) name hname

theorem Leads.head_mem (h : Leads skips entries (name :: names) node) :
    name ∈ entries.map (·.1) := by
  cases h with
  | entry h => exact List.mem_map_of_mem h
  | inside h _ _ => exact List.mem_map_of_mem h

/-- Names that lead to a node find it in the tree. -/
theorem Leads.at? (h : Leads skips entries names node) (hentries : Node.WellFormedIn entries) :
    (Node.dir entries).at? names = some node := by
  induction h with
  | entry hmem => simp [Node.at?, hentries.member?_eq_some hmem]
  | inside hmem _ _ ih =>
      rw [Node.at?, hentries.member?_eq_some hmem]
      exact ih (hentries.wellFormed hmem)

/-! ## Entries in order -/

theorem mem_insertEntry_iff {entry : String × Node} :
    entry ∈ Node.insertEntry name node rest ↔ entry = (name, node) ∨ entry ∈ rest := by
  induction rest with
  | nil => simp [Node.insertEntry]
  | cons first rest ih =>
      rw [Node.insertEntry]
      split
      · simp
      · simp only [List.mem_cons, ih]
        tauto

theorem mem_entriesInOrder_iff {entry : String × Node} :
    entry ∈ Node.entriesInOrder entries ↔ ∃ node, (entry.1, node) ∈ entries ∧
      entry.2 = node.inOrder := by
  induction entries with
  | nil => simp [Node.entriesInOrder]
  | cons first rest ih =>
      obtain ⟨name, node⟩ := first
      rw [Node.entriesInOrder, mem_insertEntry_iff, ih]
      constructor
      · rintro (rfl | ⟨node, hmem, heq⟩)
        · exact ⟨node, List.mem_cons_self, rfl⟩
        · exact ⟨node, List.mem_cons_of_mem _ hmem, heq⟩
      · rintro ⟨node, hmem, heq⟩
        rcases List.mem_cons.1 hmem with hmem | hmem
        · obtain ⟨hname, rfl⟩ := Prod.mk.inj hmem
          exact .inl (Prod.ext hname heq)
        · exact .inr ⟨node, hmem, heq⟩

theorem inOrder_eq_dir_iff {inner : List (String × Node)} :
    node.inOrder = .dir inner ↔ ∃ others, node = .dir others ∧
      inner = Node.entriesInOrder others := by
  cases node <;> simp [Node.inOrder, eq_comm]

/-- Names lead to the same nodes when the entries are in order. -/
theorem leads_entriesInOrder_iff :
    Leads skips (Node.entriesInOrder entries) names found ↔
      ∃ node, Leads skips entries names node ∧ found = node.inOrder := by
  induction names generalizing entries with
  | nil => exact ⟨fun h => absurd rfl h.ne_nil, fun ⟨_, h, _⟩ => absurd rfl h.ne_nil⟩
  | cons name names ih =>
      constructor
      · rintro (h | ⟨h, hskip, hinner⟩)
        · obtain ⟨node, hmem, heq⟩ := mem_entriesInOrder_iff.1 h
          exact ⟨node, .entry hmem, heq⟩
        · obtain ⟨node, hmem, heq⟩ := mem_entriesInOrder_iff.1 h
          obtain ⟨others, rfl, rfl⟩ := inOrder_eq_dir_iff.1 heq.symm
          obtain ⟨node, hleads, heq⟩ := ih.1 hinner
          exact ⟨node, .inside hmem hskip hleads, heq⟩
      · rintro ⟨node, h | ⟨h, hskip, hinner⟩, rfl⟩
        · exact .entry (mem_entriesInOrder_iff.2 ⟨_, h, rfl⟩)
        · refine .inside (mem_entriesInOrder_iff.2 ⟨_, h, ?_⟩) hskip (ih.2 ⟨_, hinner, rfl⟩)
          rw [Node.inOrder]

theorem perm_map_fst_insertEntry (name : String) (node : Node) (rest : List (String × Node)) :
    ((Node.insertEntry name node rest).map (·.1)).Perm (name :: rest.map (·.1)) := by
  induction rest with
  | nil => exact List.Perm.refl _
  | cons first rest ih =>
      rw [Node.insertEntry]
      split
      · exact List.Perm.refl _
      · exact (ih.cons first.1).trans (List.Perm.swap name first.1 _)

theorem perm_map_fst_entriesInOrder (entries : List (String × Node)) :
    ((Node.entriesInOrder entries).map (·.1)).Perm (entries.map (·.1)) := by
  induction entries with
  | nil => exact List.Perm.refl _
  | cons first rest ih =>
      rw [Node.entriesInOrder]
      exact (perm_map_fst_insertEntry _ _ _).trans (ih.cons first.1)

theorem wellFormedIn_iff : Node.WellFormedIn entries ↔
    (entries.map (·.1)).Nodup ∧
      ∀ name node, (name, node) ∈ entries → ValidName name ∧ node.WellFormed := by
  refine ⟨fun h => ⟨h.nodup, fun _ _ hmem => ⟨h.validName hmem, h.wellFormed hmem⟩⟩, ?_⟩
  rintro ⟨hnodup, hall⟩
  induction entries with
  | nil => trivial
  | cons first rest ih =>
      rw [List.map_cons, List.nodup_cons] at hnodup
      obtain ⟨hname, hnode⟩ := hall first.1 first.2 List.mem_cons_self
      exact ⟨hname, hnodup.1, hnode,
        ih hnodup.2 fun name node hmem => hall name node (List.mem_cons_of_mem first hmem)⟩

mutual

theorem wellFormed_inOrder : (node : Node) → node.WellFormed → node.inOrder.WellFormed
  | .dir entries, h => wellFormedIn_entriesInOrder entries h
  | .file _, _ => trivial
  | .locked, _ => trivial
  | .link _, h => h

theorem wellFormedIn_entriesInOrder : (entries : List (String × Node)) →
    Node.WellFormedIn entries → Node.WellFormedIn (Node.entriesInOrder entries)
  | [], _ => trivial
  | (name, node) :: rest, h => by
    have hnode := wellFormed_inOrder node h.2.2.1
    have hrest := wellFormedIn_iff.1 (wellFormedIn_entriesInOrder rest h.2.2.2)
    refine wellFormedIn_iff.2 ⟨?_, fun other found hmem => ?_⟩
    · exact (perm_map_fst_entriesInOrder ((name, node) :: rest)).nodup_iff.2 h.nodup
    · rw [Node.entriesInOrder, mem_insertEntry_iff] at hmem
      rcases hmem with hmem | hmem
      · obtain ⟨rfl, rfl⟩ := Prod.mk.inj hmem
        exact ⟨h.1, hnode⟩
      · exact hrest.2 other found hmem

end

/-! ## Membership -/

/-- What the walk makes of a node at a path, unless it is a directory or a link to one. -/
def met? (leadsToDir : Path → Except FileError Bool) (path : Path) : Node → Option Visit
  | .dir _ => none
  | .link _ =>
    match leadsToDir path with
    | .ok true => none
    | .ok false => some (.file path)
    | .error cause => some (.refused cause)
  | .file _ | .locked => some (.file path)

theorem met?_inOrder (leadsToDir : Path → Except FileError Bool) (path : Path) (node : Node) :
    met? leadsToDir path node.inOrder = met? leadsToDir path node := by
  cases node <;> rfl

theorem eq_of_met?_eq_file {path : Path} (h : met? leadsToDir path node = some (.file p)) :
    p = path := by
  cases node with
  | dir _ => cases h
  | link _ =>
      rw [met?] at h
      split at h <;> simp_all
  | file _ | locked =>
      cases h
      rfl

theorem met?_eq_refused_iff {path : Path} :
    met? leadsToDir path node = some (.refused cause) ↔
      (∃ target, node = .link target) ∧ leadsToDir path = .error cause := by
  cases node with
  | link _ =>
      rw [met?]
      split <;> simp_all
  | dir _ | file _ | locked => simp [met?]

theorem visits_eq_toList (path : Path) (hnode : ∀ inner, node ≠ .dir inner) :
    visits leadsToDir skips path node = (met? leadsToDir path node).toList := by
  cases node with
  | dir inner => exact absurd rfl (hnode inner)
  | link _ =>
      rw [visits, met?]
      cases leadsToDir path with
      | ok isDir => cases isDir <;> rfl
      | error _ => rfl
  | file _ | locked => rfl

/-- A visit that tells of more than a directory that is left out. -/
def Visit.Tells (visit : Visit) : Prop := ∀ dir, visit ≠ .skipped dir

theorem tells_file (p : Path) : (Visit.file p).Tells := fun _ => nofun

theorem tells_refused (cause : FileError) : (Visit.refused cause).Tells := fun _ => nofun

mutual

theorem mem_visits_iff (hvisit : visit.Tells) (dir : Path) (name : String) : (node : Node) →
    (visit ∈ visits leadsToDir skips (dir.child name) node ↔
      ∃ names found, Leads skips [(name, node)] names found ∧
        met? leadsToDir (dir.descend names) found = some visit)
  | .dir inner => by
    have hinner := mem_visitsIn_iff hvisit (dir.child name) inner
    rw [visits, Path.name_child]
    constructor
    · intro h
      split at h
      · exact absurd (List.mem_singleton.1 h) (hvisit _)
      · obtain ⟨names, found, hleads, hmet⟩ := hinner.1 h
        rw [← Path.descend_cons] at hmet
        exact ⟨name :: names, found,
          .inside (List.mem_singleton_self _) (eq_false_of_ne_true ‹_›) hleads, hmet⟩
    · rintro ⟨names, found, hleads, hmet⟩
      rcases leads_singleton_iff.1 hleads with ⟨rfl, rfl⟩ | ⟨_, more, heq, hskip, rfl, hmore⟩
      · cases hmet
      · cases heq
        rw [if_neg (by simp [hskip])]
        rw [Path.descend_cons] at hmet
        exact hinner.2 ⟨more, found, hmore, hmet⟩
  | .link _ | .file _ | .locked => by
    simp only [leads_singleton_iff, reduceCtorEq, false_and, exists_false, or_false]
    rw [visits_eq_toList _ (by simp), Option.mem_toList, ← Path.descend_singleton]
    exact ⟨fun h => ⟨_, _, ⟨rfl, rfl⟩, h⟩, fun ⟨_, _, ⟨rfl, rfl⟩, h⟩ => h⟩

/-- What the walk comes upon is what it makes of the nodes to which names lead. -/
theorem mem_visitsIn_iff (hvisit : visit.Tells) (dir : Path) : (entries : List (String × Node)) →
    (visit ∈ visitsIn leadsToDir skips dir entries ↔
      ∃ names found, Leads skips entries names found ∧
        met? leadsToDir (dir.descend names) found = some visit)
  | [] => by simp [visitsIn, not_leads_nil]
  | (name, node) :: rest => by
    have hcons : ∀ names found, Leads skips ((name, node) :: rest) names found ↔
        Leads skips [(name, node)] names found ∨ Leads skips rest names found :=
      fun _ _ => leads_cons_iff
    rw [visitsIn, List.mem_append, mem_visits_iff hvisit dir name node,
      mem_visitsIn_iff hvisit dir rest]
    simp only [hcons, or_and_right, exists_or]

end

/-! ## No repetition -/

/-- The files among what a walk comes upon. -/
def filePaths (met : List Visit) : List Path :=
  met.filterMap fun
    | .file path => some path
    | .skipped _ | .refused _ => none

theorem mem_filePaths_iff {met : List Visit} : p ∈ filePaths met ↔ .file p ∈ met := by
  rw [filePaths, List.mem_filterMap]
  constructor
  · rintro ⟨visit, hmem, hpath⟩
    cases visit <;> simp_all
  · exact fun h => ⟨.file p, h, rfl⟩

theorem filePaths_append (met more : List Visit) :
    filePaths (met ++ more) = filePaths met ++ filePaths more :=
  List.filterMap_append ..

theorem disjoint_filePaths (dir : Path) (h : name ∉ rest.map (·.1)) :
    List.Disjoint (filePaths (visits leadsToDir skips (dir.child name) node))
      (filePaths (visitsIn leadsToDir skips dir rest)) := by
  intro p hfirst hrest
  rw [mem_filePaths_iff, mem_visits_iff (tells_file p)] at hfirst
  rw [mem_filePaths_iff, mem_visitsIn_iff (tells_file p)] at hrest
  obtain ⟨names, found, hleads, hmet⟩ := hfirst
  obtain ⟨others, other, hothers, hmet'⟩ := hrest
  obtain rfl := eq_of_met?_eq_file hmet
  cases Path.descend_injective dir (eq_of_met?_eq_file hmet')
  obtain ⟨first, more, rfl⟩ := List.exists_cons_of_ne_nil hleads.ne_nil
  have hname : first = name := by simpa using hleads.head_mem
  exact h (hname ▸ hothers.head_mem)

mutual

theorem nodup_filePaths_visits (dir : Path) (name : String) : (node : Node) → node.WellFormed →
    (filePaths (visits leadsToDir skips (dir.child name) node)).Nodup
  | .dir inner, h => by
    rw [visits]
    split
    · exact List.nodup_nil
    · exact nodup_filePaths_visitsIn (dir.child name) inner h
  | .link _, _ => by
    rw [visits]
    split
    · exact List.nodup_nil
    · exact List.nodup_singleton _
    · exact List.nodup_nil
  | .file _, _ | .locked, _ => List.nodup_singleton _

/-- In a well-formed tree the walk comes upon no file twice. -/
theorem nodup_filePaths_visitsIn (dir : Path) : (entries : List (String × Node)) →
    Node.WellFormedIn entries → (filePaths (visitsIn leadsToDir skips dir entries)).Nodup
  | [], _ => List.nodup_nil
  | (name, node) :: rest, h => by
    rw [visitsIn, filePaths_append, List.nodup_append']
    exact ⟨nodup_filePaths_visits dir name node h.2.2.1,
      nodup_filePaths_visitsIn dir rest h.2.2.2, disjoint_filePaths dir h.2.1⟩

end

end EnvAudit.TreeScan
