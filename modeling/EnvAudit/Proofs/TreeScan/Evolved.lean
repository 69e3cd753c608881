import EnvAudit.Proofs.FileScan.Suggests
import EnvAudit.Proofs.FileSystem.Write
import EnvAudit.Proofs.TreeScan.Exact

/-!
# Scanning a tree again

Where nothing but files was written between two scans, a file that reads the same in both was there
for the first one already.
-/

namespace EnvAudit

namespace TreeScan

variable {fs fs' : FileSystem} {skips : String → Bool} {dir p : Path}
variable {entries entries' : List (String × Node)} {names : List String} {node : Node}
variable {bytes : ByteArray} {engine : Engine} {name : String}

/-- Names lead to what stands in the tree, if none of the directories on the way is skipped. -/
theorem leads_iff_at? (hentries : Node.WellFormedIn entries) :
    Leads skips entries names node ↔
      names ≠ [] ∧ (Node.dir entries).at? names = some node ∧
        ∀ name ∈ names.dropLast, skips name = false := by
  constructor
  · intro h
    refine ⟨h.ne_nil, h.at? hentries, ?_⟩
    induction h with
    | entry => simp
    | inside hmem hskip hinner ih =>
        intro name hname
        rw [List.dropLast_cons_of_ne_nil hinner.ne_nil] at hname
        rcases List.mem_cons.1 hname with rfl | hname
        · exact hskip
        · exact ih (hentries.wellFormed hmem) name hname
  · rintro ⟨hne, hat, hskips⟩
    induction names generalizing entries with
    | nil => exact absurd rfl hne
    | cons first names ih =>
        rw [Node.at?_cons, Option.bind_eq_some_iff] at hat
        obtain ⟨inner, hinner, hat⟩ := hat
        have hmem := Node.mem_of_member? hinner
        by_cases hnil : names = []
        · rw [hnil, Node.at?, Option.some.injEq] at hat
          rw [hnil, ← hat]
          exact .entry hmem
        · rw [List.dropLast_cons_of_ne_nil hnil] at hskips
          obtain ⟨second, more, rfl⟩ := List.exists_cons_of_ne_nil hnil
          cases inner with
          | dir others =>
              refine .inside hmem (hskips first List.mem_cons_self) ?_
              exact ih (hentries.wellFormed hmem) hnil hat fun name hname =>
                hskips name (List.mem_cons_of_mem first hname)
          | file _ | locked | link _ => cases hat

/-- A path below a directory leads to the place of its names, if no link stands there. -/
theorem place?_descend {place : List String} (hplace : fs.place? dir = some place)
    (hne : names ≠ []) (hvalid : ∀ name ∈ names, ValidName name)
    (hdir : fs.root.at? place = some (.dir entries))
    (hat : (Node.dir entries).at? names = some node) (hlink : ∀ target, node ≠ .link target) :
    fs.place? (dir.descend names) = some (place ++ names) := by
  have hlocate := FileSystem.place?_eq_some_iff.1 hplace
  have hfull : fs.root.at? (place ++ names) = some node := by
    rw [Node.at?_append, hdir]
    exact hat
  rw [hdir] at hlocate
  exact FileSystem.placeOf_eq_some_iff.2 ⟨_, FileSystem.locate_descend hlocate hne hvalid
    (FileSystem.follow_eq_at? hfull hlink hvalid)⟩

/-- What is scanned after files were written, and was a file before, was scanned before. -/
theorem Scanned.of_evolves (hp : Scanned fs' skips dir entries' p)
    (hevolves : fs.root.Evolves fs'.root) (hcwd : fs'.cwd = fs.cwd)
    (hdir : fs.HoldsDir dir entries) (hdir' : fs'.HoldsDir dir entries')
    (hbytes : fs.bytes? p = some bytes) : Scanned fs skips dir entries p := by
  obtain ⟨⟨names, node', hleads, rfl⟩, -, hlanguage⟩ := hp
  obtain ⟨place, hlocate⟩ := FileSystem.stat_eq_ok_iff.1 hdir.stat
  obtain ⟨place', hlocate'⟩ := FileSystem.stat_eq_ok_iff.1 hdir'.stat
  have hplace : fs.place? dir = some place := FileSystem.placeOf_eq_some_iff.2 ⟨_, hlocate⟩
  have hplace' : fs'.place? dir = some place' := FileSystem.placeOf_eq_some_iff.2 ⟨_, hlocate'⟩
  have hsame := FileSystem.place?_eq_of_evolves hevolves hcwd
  rw [hsame, hplace, Option.some.injEq] at hplace'
  subst hplace'
  have hat := FileSystem.locate_at? hlocate
  have hat' := FileSystem.locate_at? hlocate'
  have hvalid := hleads.validName hdir'.wellFormed
  obtain ⟨hne, hnode', hskips⟩ := (leads_iff_at? hdir'.wellFormed).1 hleads
  have hnode := (FileSystem.bytes?_eq_some_iff.1 hbytes).2
  have hexists : ∃ node, (Node.dir entries).at? names = some node := by
    have hbecomes := hevolves (place ++ names)
    rw [Node.at?_append, Node.at?_append, hat, hat', Option.bind_some, Option.bind_some] at hbecomes
    rw [hnode'] at hbecomes
    generalize hfound : (Node.dir entries).at? names = found at hbecomes ⊢
    cases hbecomes with
    | same => exact ⟨node', rfl⟩
    | dir inner => exact ⟨_, rfl⟩
    | changed before => exact ⟨_, rfl⟩
    | made new =>
        have hthere := place?_descend (hsame dir ▸ hplace) hne hvalid hat' hnode' (by simp)
        rw [hsame] at hthere
        rw [FileSystem.node?, hthere, Option.bind_some, Node.at?_append, hat,
          Option.bind_some, hfound] at hnode
        cases hnode
  obtain ⟨node, hfound⟩ := hexists
  refine ⟨⟨names, node, (leads_iff_at? hdir.wellFormed).2 ⟨hne, hfound, hskips⟩, rfl⟩, ?_,
    hlanguage⟩
  rw [FileSystem.isDir, FileSystem.tells_eq_ok_iff, hnode]
  exact ⟨FileSystem.refusal?_of_node? hnode, by simp [Node.isDir]⟩

end TreeScan

namespace FileScan

variable {engine : Engine} {fs fs' : FileSystem} {p : Path} {name : String}

/-- A file that suggests a name suggests it wherever it reads the same. -/
theorem Suggests.of_bytes? (h : Suggests engine fs' p name) (hbytes : fs.bytes? p = fs'.bytes? p) :
    Suggests engine fs p name ∧ ∃ bytes, fs.bytes? p = some bytes := by
  obtain ⟨language, bytes, -, hread, -⟩ := h.read
  rw [FileSystem.bytes?_eq_some_iff_read.2 hread] at hbytes
  exact ⟨h.congr (hread.trans (FileSystem.bytes?_eq_some_iff_read.1 hbytes).symm), bytes, hbytes⟩

end FileScan

end EnvAudit
