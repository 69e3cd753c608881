import EnvAudit.Proofs.FileSystem.Lookup

/-!
# A file put into a tree

A file that is put into a directory, where nothing or a file stood, changes what stands at its own
place.  Elsewhere everything stays, only that the directories on the way hold something else.
-/

namespace EnvAudit.Node

variable {node node' found : Node} {entries : List (String × Node)} {name other : String}
variable {parent names : List String} {bytes : ByteArray}

theorem member?_putEntry (node : Node) (entries : List (String × Node)) (name other : String) :
    member? (putEntry name node entries) other =
      if other = name then some node else member? entries other := by
  induction entries with
  | nil =>
      by_cases h : other = name
      · simp [putEntry, member?, h]
      · simp [putEntry, member?, h, Ne.symm h]
  | cons first rest ih =>
      obtain ⟨first, old⟩ := first
      have hcons : ∀ (n : String) (x : Node) rest, member? ((n, x) :: rest) other =
          if n = other then some x else member? rest other := by
        intro n x rest
        by_cases h : n = other <;> simp [member?, h]
      rw [putEntry]
      split
      · rename_i heq
        subst heq
        rw [hcons, hcons]
        by_cases h : first = other
        · rw [if_pos h, if_pos h.symm]
        · rw [if_neg h, if_neg h, if_neg (Ne.symm h)]
      · rename_i hne
        rw [hcons, hcons, ih]
        by_cases h : first = other
        · rw [if_pos h, if_pos h, if_neg fun heq => hne (h.trans heq)]
        · rw [if_neg h, if_neg h]

theorem at?_cons (entries : List (String × Node)) (name : String) (names : List String) :
    (dir entries).at? (name :: names) = (member? entries name).bind (·.at? names) := by
  rw [at?]
  cases member? entries name <;> rfl

/-- What stands somewhere stands in a directory. -/
theorem isDir_of_at?_concat (h : node.at? (parent ++ [name]) = some found) :
    ∃ entries, node.at? parent = some (.dir entries) := by
  rw [at?_append, Option.bind_eq_some_iff] at h
  obtain ⟨inner, hinner, hname⟩ := h
  cases inner with
  | dir entries => exact ⟨entries, hinner⟩
  | file _ | locked | link _ => cases hname

/-- What may become of what stands at a place when files are written. -/
inductive Becomes : Option Node → Option Node → Prop
  | same (found : Option Node) : Becomes found found
  | dir (entries entries' : List (String × Node)) :
      Becomes (some (.dir entries)) (some (.dir entries'))
  | made (bytes : ByteArray) : Becomes none (some (.file bytes))
  | changed (bytes bytes' : ByteArray) : Becomes (some (.file bytes)) (some (.file bytes'))

theorem Becomes.trans {a b c : Option Node} (h : Becomes a b) (h' : Becomes b c) :
    Becomes a c := by
  cases h with
  | same => exact h'
  | dir => cases h' <;> constructor
  | made => cases h' <;> constructor
  | changed => cases h' <;> constructor

/-- Nothing has happened to a tree but that files were written. -/
def Evolves (node node' : Node) : Prop := ∀ names, Becomes (node.at? names) (node'.at? names)

theorem Evolves.refl (node : Node) : node.Evolves node := fun _ => .same _

theorem Evolves.trans {node'' : Node} (h : node.Evolves node') (h' : node'.Evolves node'') :
    node.Evolves node'' := fun names => (h names).trans (h' names)

/-- A file can be put into a directory under a name under which nothing or a file stands. -/
structure Takes (node : Node) (parent : List String) (name : String) : Prop where
  isDir : ∃ entries, node.at? parent = some (.dir entries)
  free : ∀ found, node.at? (parent ++ [name]) = some found → ∃ bytes, found = .file bytes

theorem Takes.inside {inner : Node}
    (h : (dir entries).Takes (other :: parent) name) (hinner : member? entries other = some inner) :
    inner.Takes parent name where
  isDir := by
    obtain ⟨found, hfound⟩ := h.isDir
    rw [at?_cons, hinner] at hfound
    exact ⟨found, hfound⟩
  free found hfound := by
    apply h.free found
    rwa [List.cons_append, at?_cons, hinner]

theorem Takes.exists_entries (h : node.Takes parent name) : ∃ entries, node = .dir entries := by
  obtain ⟨entries, hentries⟩ := h.isDir
  cases parent with
  | nil => exact ⟨entries, Option.some.inj hentries⟩
  | cons other parent =>
      cases node with
      | dir others => exact ⟨others, rfl⟩
      | file _ | locked | link _ => cases hentries

/-- The directory on the way to a place is there. -/
theorem Takes.exists_member (h : (dir entries).Takes (other :: parent) name) :
    ∃ inner, member? entries other = some inner := by
  obtain ⟨found, hfound⟩ := h.isDir
  rw [at?_cons, Option.bind_eq_some_iff] at hfound
  obtain ⟨inner, hinner, -⟩ := hfound
  exact ⟨inner, hinner⟩

/-- What is put at a place stands there, wherever it is. -/
theorem at?_put_self (new : Node) (names : List String) (node : Node) :
    (put new names node).at? names = some new := by
  induction names generalizing node with
  | nil => rfl
  | cons name names ih =>
      cases node with
      | dir entries =>
          rw [put, at?_cons, member?_putEntry, if_pos rfl]
          exact ih _
      | file _ | locked | link _ =>
          have hmember : member? [(name, put new names (dir []))] name = some (put new names (dir [])) := by
            simp [member?]
          change (dir [(name, put new names (dir []))]).at? (name :: names) = some new
          rw [at?_cons, hmember]
          exact ih _

/-- At other places the same stands as before, or a directory in both cases. -/
theorem at?_put_of_ne (h : node.Takes parent name) (bytes : ByteArray)
    (hne : names ≠ parent ++ [name]) :
    (put (.file bytes) (parent ++ [name]) node).at? names = node.at? names ∨
      ∃ entries entries', node.at? names = some (.dir entries) ∧
        (put (.file bytes) (parent ++ [name]) node).at? names = some (.dir entries') := by
  induction parent generalizing node names with
  | nil =>
      obtain ⟨entries, rfl⟩ := h.exists_entries
      rw [List.nil_append, put]
      cases names with
      | nil => exact .inr ⟨_, _, rfl, rfl⟩
      | cons first names =>
          refine .inl ?_
          rw [at?_cons, at?_cons, member?_putEntry]
          split
          · rename_i heq
            subst heq
            have hnames : names ≠ [] := fun hnil => hne (by rw [hnil]; rfl)
            obtain ⟨second, names, rfl⟩ := List.exists_cons_of_ne_nil hnames
            cases hold : member? entries first with
            | none => rfl
            | some old =>
                obtain ⟨_, rfl⟩ := h.free old (by rw [List.nil_append, at?_cons, hold]; rfl)
                rfl
          · rfl
  | cons other parent ih =>
      obtain ⟨entries, rfl⟩ := h.exists_entries
      obtain ⟨inner, hinner⟩ := h.exists_member
      rw [List.cons_append, put]
      cases names with
      | nil => exact .inr ⟨_, _, rfl, rfl⟩
      | cons first names =>
          rw [at?_cons, at?_cons, member?_putEntry]
          split
          · rename_i heq
            subst heq
            rw [hinner]
            exact ih (h.inside hinner) fun heq => hne (by rw [heq, List.cons_append])
          · exact .inl rfl

theorem Takes.evolves (h : node.Takes parent name) :
    node.Evolves (put (.file bytes) (parent ++ [name]) node) := by
  intro names
  by_cases heq : names = parent ++ [name]
  · rw [heq, at?_put_self]
    cases hold : node.at? (parent ++ [name]) with
    | none => exact .made bytes
    | some old =>
        obtain ⟨_, rfl⟩ := h.free old hold
        exact .changed _ _
  · rcases at?_put_of_ne h bytes heq with hsame | ⟨_, _, hold, hnew⟩
    · rw [hsame]
      exact .same _
    · rw [hold, hnew]
      exact .dir _ _

/-! ## Well-formed trees -/

theorem mem_of_member? (h : member? entries name = some node) : (name, node) ∈ entries := by
  rw [member?, Option.map_eq_some_iff] at h
  obtain ⟨⟨other, old⟩, hfind, rfl⟩ := h
  have hname := List.find?_some hfind
  rw [beq_iff_eq] at hname
  exact hname ▸ List.mem_of_find?_eq_some hfind

/-- What stands in a well-formed tree is well-formed, and valid names lead to it. -/
theorem WellFormed.at? (h : node.WellFormed) (hfound : node.at? names = some found) :
    found.WellFormed ∧ ∀ name ∈ names, ValidName name := by
  induction names generalizing node with
  | nil =>
      rw [Node.at?, Option.some.injEq] at hfound
      exact ⟨hfound ▸ h, by simp⟩
  | cons name names ih =>
      cases node with
      | dir entries =>
          rw [at?_cons, Option.bind_eq_some_iff] at hfound
          obtain ⟨inner, hinner, hfound⟩ := hfound
          have hentries : WellFormedIn entries := h
          have hmem := mem_of_member? hinner
          have hrest := ih (hentries.wellFormed hmem) hfound
          refine ⟨hrest.1, ?_⟩
          intro other hother
          rcases List.mem_cons.1 hother with rfl | hother
          · exact hentries.validName hmem
          · exact hrest.2 other hother
      | file _ | locked | link _ => cases hfound

theorem mem_map_fst_putEntry {node : Node} (h : other ∈ (putEntry name node entries).map (·.1)) :
    other = name ∨ other ∈ entries.map (·.1) := by
  induction entries with
  | nil => exact .inl (List.mem_singleton.1 h)
  | cons first rest ih =>
      rw [putEntry] at h
      split at h
      · exact .inr h
      · rcases List.mem_cons.1 h with rfl | h
        · exact .inr List.mem_cons_self
        · exact (ih h).imp id (List.mem_cons_of_mem first.1)

theorem WellFormedIn.putEntry (h : WellFormedIn entries) (hname : ValidName name)
    (hnode : node.WellFormed) : WellFormedIn (putEntry name node entries) := by
  induction entries with
  | nil => exact ⟨hname, by simp, hnode, trivial⟩
  | cons first rest ih =>
      obtain ⟨hfirst, hnotMem, hold, hrest⟩ := h
      rw [Node.putEntry]
      split
      · exact ⟨hfirst, hnotMem, hnode, hrest⟩
      · rename_i hne
        refine ⟨hfirst, fun hmem => ?_, hold, ih hrest⟩
        exact (mem_map_fst_putEntry hmem).elim hne hnotMem

/-- A tree stays well-formed with a file of a valid name. -/
theorem WellFormed.put (h : node.WellFormed) (hname : ValidName name)
    (htakes : node.Takes parent name) : (put (.file bytes) (parent ++ [name]) node).WellFormed := by
  induction parent generalizing node with
  | nil =>
      obtain ⟨entries, rfl⟩ := htakes.exists_entries
      exact WellFormedIn.putEntry h hname trivial
  | cons other parent ih =>
      obtain ⟨entries, rfl⟩ := htakes.exists_entries
      obtain ⟨inner, hinner⟩ := htakes.exists_member
      have hentries : WellFormedIn entries := h
      have hmem := mem_of_member? hinner
      rw [List.cons_append, Node.put, hinner]
      exact hentries.putEntry (hentries.validName hmem)
        (ih (hentries.wellFormed hmem) (htakes.inside hinner))

end EnvAudit.Node
