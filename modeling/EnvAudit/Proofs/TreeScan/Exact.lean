import EnvAudit.Proofs.FileScan.Facts
import EnvAudit.Proofs.TreeScan.Reached

/-!
# What a scan of a tree finds

A scan puts together the findings of the files that its walk reaches.  Since findings only depend on
their facts, the files may be put together in any order, and what the walk does not reach has no
influence.
-/

namespace EnvAudit

open TreeScan

namespace FileSystem

variable {fs : FileSystem} {dir p : Path} {entries : List (String × Node)} {names : List String}

theorem read_error_of_hasNull_eq_false (h : hasNull p = false) {cause : FileError}
    (hread : fs.read p = .error cause) : ∃ fault spelling, cause = .fault fault spelling := by
  rw [read, if_neg (by simp [h])] at hread
  split at hread
  · cases hread
  · exact ⟨_, _, (Except.error.inj hread).symm⟩
  · exact ⟨_, _, (Except.error.inj hread).symm⟩
  · exact ⟨_, _, (Except.error.inj hread).symm⟩

theorem read_congr {fs' : FileSystem} (h : fs.stat p = fs'.stat p) : fs.read p = fs'.read p := by
  rw [read, read, h]

theorem probe_congr {fs' : FileSystem} (h : fs.stat p = fs'.stat p) : fs.probe p = fs'.probe p := by
  rw [probe, probe, h]

end FileSystem

namespace TreeScan

variable {fs : FileSystem} {dir p : Path} {entries : List (String × Node)} {names : List String}
variable {skips : String → Bool} {engine : Engine} {node : Node}

/-- The walk from a directory with the entries reaches a path, at which there is no directory, and
the path belongs to a language. -/
structure Scanned (fs : FileSystem) (skips : String → Bool) (dir : Path)
    (entries : List (String × Node)) (p : Path) : Prop where
  reached : ∃ names node, Leads skips entries names node ∧ p = dir.descend names
  notDir : fs.isDir p = .ok false
  hasLanguage : (Language.ofPath? p).isSome

/-- The system tells of every link that the walk reaches whether it leads to a directory. -/
def Answers (fs : FileSystem) (skips : String → Bool) (dir : Path)
    (entries : List (String × Node)) : Prop :=
  ∀ names target, Leads skips entries names (.link target) →
    ∃ leads, fs.isDir (dir.descend names) = .ok leads

/-- All scanned paths, each of them once. -/
structure Lists (fs : FileSystem) (skips : String → Bool) (dir : Path)
    (entries : List (String × Node)) (order : List Path) : Prop where
  nodup : order.Nodup
  mem_iff : ∀ p, p ∈ order ↔ Scanned fs skips dir entries p

/-- The findings of files, one after the other. -/
def mergeFound (engine : Engine) (fs : FileSystem) (order : List Path) : Findings :=
  order.foldl (fun findings p => findings.merge (FileScan.foundAt engine fs p)) .empty

/-- The order of the files leaves no trace. -/
theorem holds_mergeFound (engine : Engine) (fs : FileSystem) (order : List Path) :
    (mergeFound engine fs order).Holds (order.toFinset.biUnion (FileScan.fileFacts engine fs)) := by
  have hall : (mergeFound engine fs order).Holds
      (∅ ∪ order.toFinset.biUnion (FileScan.fileFacts engine fs)) :=
    Findings.holds_empty.foldl fun p _ _ _ h => h.merge (FileScan.holds_foundAt engine fs p)
  rwa [Finset.empty_union] at hall

/-! ## The walk -/

/-- What the walk comes upon before it is refused an answer. -/
def answered : List Visit → List Visit
  | [] => []
  | .refused _ :: _ => []
  | .skipped dir :: rest => .skipped dir :: answered rest
  | .file path :: rest => .file path :: answered rest

/-- How the walk ends: with the first refusal, if there is one. -/
def ending : List Visit → Except FileError Unit
  | [] => .ok ()
  | .refused cause :: _ => .error cause
  | .skipped _ :: rest | .file _ :: rest => ending rest

theorem ending_eq_ok_iff {met : List Visit} :
    ending met = .ok () ↔ ∀ cause, .refused cause ∉ met := by
  induction met with
  | nil => simp [ending]
  | cons visit rest ih =>
      cases visit with
      | refused cause => exact iff_of_false nofun fun h => h cause List.mem_cons_self
      | skipped _ | file _ => simp [ending, ih]

theorem answered_eq_self {met : List Visit} (h : ending met = .ok ()) : answered met = met := by
  induction met with
  | nil => rfl
  | cons visit rest ih =>
      cases visit with
      | refused _ => cases h
      | skipped _ | file _ => exact congrArg _ (ih h)

theorem answered_sublist (met : List Visit) : (answered met).Sublist met := by
  induction met with
  | nil => exact .slnil
  | cons visit rest ih =>
      cases visit with
      | refused _ => exact List.nil_sublist _
      | skipped _ | file _ => exact ih.cons_cons _

theorem met?_eq_file_iff (h : fs.HoldsDir dir entries) (hleads : Leads skips entries names node) :
    met? fs.isDir (dir.descend names) node = some (.file p) ↔
      fs.isDir (dir.descend names) = .ok false ∧ p = dir.descend names := by
  have hentries : Node.WellFormedIn entries := h.wellFormed
  have hvalid := hleads.validName hentries
  have hnull := Path.hasNull_descend h.hasNull hvalid
  suffices hfile : (∃ q, met? fs.isDir (dir.descend names) node = some (.file q)) ↔
      fs.isDir (dir.descend names) = .ok false by
    constructor
    · exact fun hmet => ⟨hfile.1 ⟨p, hmet⟩, eq_of_met?_eq_file hmet⟩
    · rintro ⟨hdir, rfl⟩
      obtain ⟨q, hmet⟩ := hfile.2 hdir
      obtain rfl := eq_of_met?_eq_file hmet
      exact hmet
  cases node with
  | link target =>
      rw [met?]
      split <;> simp_all
  | file _ | locked | dir _ =>
      have hstat := h.stat_descend (hleads.at? hentries) (by simp) hvalid
      simp [met?, FileSystem.isDir, FileSystem.tells_of_stat hstat, hnull, Node.isDir]

/-- A file whose path can be spelled is never a failure. -/
theorem scanFile_value (engine : Engine) (fs : FileSystem) (language : Language)
    (hnull : FileSystem.hasNull p = false) :
    ∃ found?, (FileScan.scanFile engine fs p language).value = .ok found? := by
  rw [FileScan.scanFile]
  cases hread : fs.read p with
  | ok bytes => exact ⟨_, rfl⟩
  | error cause =>
      obtain ⟨fault, spelling, rfl⟩ := FileSystem.read_error_of_hasNull_eq_false hnull hread
      exact ⟨_, rfl⟩

/-- The files with a language among what a walk comes upon. -/
def sourcePaths (met : List Visit) : List Path :=
  (filePaths met).filter fun p => (Language.ofPath? p).isSome

theorem sourcePaths_file_cons (p : Path) (rest : List Visit) :
    sourcePaths (.file p :: rest) =
      if (Language.ofPath? p).isSome then p :: sourcePaths rest else sourcePaths rest :=
  List.filter_cons

/-- Following the walk merges the findings of each file with a language and counts it, until an answer is
refused. -/
theorem value_follow {met : List Visit}
    (hnull : ∀ p ∈ filePaths met, FileSystem.hasNull p = false) (outcome : Outcome) :
    (follow engine fs outcome met).value =
      ({ findings := (sourcePaths (answered met)).foldl
            (fun findings p => findings.merge (FileScan.foundAt engine fs p)) outcome.findings
         scannedFiles := outcome.scannedFiles + (sourcePaths (answered met)).length }, ending met) := by
  induction met generalizing outcome with
  | nil => rfl
  | cons visit rest ih =>
      cases visit with
      | refused _ => rfl
      | skipped _ =>
          simp only [follow, Logged.value_bind]
          exact ih hnull outcome
      | file p =>
          have hmem : p ∈ filePaths (.file p :: rest) := mem_filePaths_iff.2 List.mem_cons_self
          have hrest : ∀ q ∈ filePaths rest, FileSystem.hasNull q = false := fun q hq =>
            hnull q (mem_filePaths_iff.2 (List.mem_cons_of_mem _ (mem_filePaths_iff.1 hq)))
          rw [answered, ending, sourcePaths_file_cons, follow]
          cases hlanguage : Language.ofPath? p with
          | none =>
              rw [if_neg (by simp)]
              exact ih hrest outcome
          | some language =>
              obtain ⟨found?, hfound⟩ := scanFile_value engine fs language (hnull p hmem)
              have hcount : outcome.scannedFiles + 1 + (sourcePaths (answered rest)).length =
                  outcome.scannedFiles + (p :: sourcePaths (answered rest)).length := by
                rw [List.length_cons]
                omega
              have hat : FileScan.foundAt engine fs p = found?.getD .empty := by
                rw [FileScan.foundAt, hlanguage]
                simp only [hfound]
                cases found? <;> rfl
              rw [if_pos (by simp), List.foldl_cons, hat, ← hcount]
              simp only [Logged.value_bind, hfound]
              cases found? with
              | none => exact ih hrest _
              | some found => exact ih hrest _

/-- What a scan of a directory comes upon. -/
def walk (fs : FileSystem) (skips : String → Bool) (dir : Path)
    (entries : List (String × Node)) : List Visit :=
  visitsIn fs.isDir skips dir (Node.entriesInOrder entries)

/-- The files that a scan of a directory merges, in the order of the walk. -/
def walkOrder (fs : FileSystem) (skips : String → Bool) (dir : Path)
    (entries : List (String × Node)) : List Path :=
  sourcePaths (answered (walk fs skips dir entries))

theorem mem_walk_iff {visit : Visit} (hvisit : visit.Tells) :
    visit ∈ walk fs skips dir entries ↔
      ∃ names node, Leads skips entries names node ∧
        met? fs.isDir (dir.descend names) node = some visit := by
  rw [walk, mem_visitsIn_iff hvisit]
  constructor
  · rintro ⟨names, found, hleads, hmet⟩
    obtain ⟨node, hnode, rfl⟩ := leads_entriesInOrder_iff.1 hleads
    exact ⟨names, node, hnode, by rwa [met?_inOrder] at hmet⟩
  · rintro ⟨names, node, hleads, hmet⟩
    exact ⟨names, node.inOrder, leads_entriesInOrder_iff.2 ⟨node, hleads, rfl⟩, by
      rwa [met?_inOrder]⟩

/-- A walk is refused an answer exactly if it reaches a link of which the system does not tell. -/
theorem refused_mem_walk_iff {cause : FileError} :
    .refused cause ∈ walk fs skips dir entries ↔
      ∃ names target, Leads skips entries names (.link target) ∧
        fs.isDir (dir.descend names) = .error cause := by
  rw [mem_walk_iff (tells_refused cause)]
  constructor
  · rintro ⟨names, node, hleads, hmet⟩
    obtain ⟨⟨target, rfl⟩, hcause⟩ := met?_eq_refused_iff.1 hmet
    exact ⟨names, target, hleads, hcause⟩
  · rintro ⟨names, target, hleads, hcause⟩
    exact ⟨names, _, hleads, met?_eq_refused_iff.2 ⟨⟨target, rfl⟩, hcause⟩⟩

theorem ending_walk_iff : ending (walk fs skips dir entries) = .ok () ↔ Answers fs skips dir entries := by
  simp only [ending_eq_ok_iff, refused_mem_walk_iff, not_exists, not_and]
  constructor
  · intro h names target hleads
    cases hdir : fs.isDir (dir.descend names) with
    | ok leads => exact ⟨leads, rfl⟩
    | error cause => exact absurd hdir (h cause names target hleads)
  · intro h cause names target hleads hcause
    obtain ⟨leads, hanswer⟩ := h names target hleads
    rw [hanswer] at hcause
    cases hcause

/-- Where it gets all answers, the walk lists what is to be scanned. -/
theorem lists_walkOrder (h : fs.HoldsDir dir entries) (hanswers : Answers fs skips dir entries) :
    Lists fs skips dir entries (walkOrder fs skips dir entries) where
  nodup := by
    rw [walkOrder, answered_eq_self (ending_walk_iff.2 hanswers)]
    exact (nodup_filePaths_visitsIn dir _
      (wellFormedIn_entriesInOrder entries h.wellFormed)).filter _
  mem_iff p := by
    rw [walkOrder, answered_eq_self (ending_walk_iff.2 hanswers), sourcePaths, List.mem_filter,
      mem_filePaths_iff, mem_walk_iff (tells_file p)]
    constructor
    · rintro ⟨⟨names, node, hleads, hmet⟩, hlanguage⟩
      obtain ⟨hdir, rfl⟩ := (met?_eq_file_iff h hleads).1 hmet
      exact ⟨⟨names, node, hleads, rfl⟩, hdir, hlanguage⟩
    · rintro ⟨⟨names, node, hleads, rfl⟩, hdir, hlanguage⟩
      exact ⟨⟨names, node, hleads, (met?_eq_file_iff h hleads).2 ⟨hdir, rfl⟩⟩, hlanguage⟩

theorem value_scan (h : fs.HoldsDir dir entries) (excluded : List String) :
    (scan engine fs excluded dir).value =
      ({ findings := mergeFound engine fs (walkOrder fs (TreeScan.skips excluded) dir entries)
         scannedFiles := (walkOrder fs (TreeScan.skips excluded) dir entries).length },
        ending (walk fs (TreeScan.skips excluded) dir entries)) := by
  have hfile : fs.isFile dir = .ok false := by
    rw [FileSystem.isFile, FileSystem.tells_of_stat h.stat, Node.isFile, Bool.and_false]
  have hstart : start fs excluded dir = .ok (walk fs (TreeScan.skips excluded) dir entries) := by
    simp [start, walk, hfile, h.lists, bind, Except.bind, pure, Except.pure]
  have hnull : ∀ p ∈ filePaths (walk fs (TreeScan.skips excluded) dir entries),
      FileSystem.hasNull p = false := by
    intro p hp
    obtain ⟨names, node, hleads, hmet⟩ :=
      (mem_walk_iff (tells_file p)).1 (mem_filePaths_iff.1 hp)
    obtain rfl := eq_of_met?_eq_file hmet
    exact Path.hasNull_descend h.hasNull (hleads.validName h.wellFormed)
  simp only [scan, hstart]
  rw [value_follow hnull, Nat.zero_add]
  rfl

/-- Two trees at one path agree on the files that a scan reads.  Files that belong to no language may
differ, and so may all that is in skipped directories or that links to directories lead to; only
where a link stands for a file, it has to lead to the same content. -/
structure SameSources (fs fs' : FileSystem) (skips : String → Bool) (dir : Path)
    (entries entries' : List (String × Node)) : Prop where
  files : ∀ names node, (∀ inner, node ≠ .dir inner) →
    (Language.ofPath? (dir.descend names)).isSome →
      (Leads skips entries names node ↔ Leads skips entries' names node)
  links : ∀ names target, Leads skips entries names (.link target) →
    (Language.ofPath? (dir.descend names)).isSome →
      fs.isDir (dir.descend names) = fs'.isDir (dir.descend names) ∧
        fs.read (dir.descend names) = fs'.read (dir.descend names)

variable {fs' : FileSystem} {entries' : List (String × Node)}

theorem SameSources.symm (h : SameSources fs fs' skips dir entries entries') :
    SameSources fs' fs skips dir entries' entries where
  files names node hdir hlanguage := (h.files names node hdir hlanguage).symm
  links names target hleads hlanguage := by
    have hback := (h.files names _ (by simp) hlanguage).2 hleads
    obtain ⟨hisDir, hread⟩ := h.links names target hback hlanguage
    exact ⟨hisDir.symm, hread.symm⟩

/-- What is scanned in one tree is scanned in the other and reads the same. -/
theorem SameSources.scanned (h : SameSources fs fs' skips dir entries entries')
    (hfs : fs.HoldsDir dir entries) (hfs' : fs'.HoldsDir dir entries')
    (hp : Scanned fs skips dir entries p) :
    Scanned fs' skips dir entries' p ∧ fs.read p = fs'.read p := by
  obtain ⟨⟨names, node, hleads, rfl⟩, hdir, hlanguage⟩ := hp
  have hnode : ∀ inner, node ≠ .dir inner := by
    rintro inner rfl
    cases (met?_eq_file_iff hfs hleads).2 ⟨hdir, rfl⟩
  have hleads' := (h.files names node hnode hlanguage).1 hleads
  have hsame : fs.isDir (dir.descend names) = fs'.isDir (dir.descend names) ∧
      fs.read (dir.descend names) = fs'.read (dir.descend names) := by
    by_cases hlink : ∃ target, node = .link target
    · obtain ⟨target, rfl⟩ := hlink
      exact h.links names target hleads hlanguage
    · have hvalid := hleads.validName hfs.wellFormed
      have hnotLink : ∀ target, node ≠ .link target := fun target heq => hlink ⟨target, heq⟩
      have hstat := hfs.stat_descend (hleads.at? hfs.wellFormed) hnotLink hvalid
      have hstat' := hfs'.stat_descend (hleads'.at? hfs'.wellFormed) hnotLink hvalid
      have heq := hstat.trans hstat'.symm
      refine ⟨?_, FileSystem.read_congr heq⟩
      rw [FileSystem.isDir, FileSystem.isDir, FileSystem.tells, FileSystem.tells,
        FileSystem.probe_congr heq]
  exact ⟨⟨⟨names, node, hleads', rfl⟩, hsame.1 ▸ hdir, hlanguage⟩, hsame.2⟩

theorem SameSources.lists (h : SameSources fs fs' skips dir entries entries')
    (hfs : fs.HoldsDir dir entries) (hfs' : fs'.HoldsDir dir entries') {order : List Path}
    (horder : Lists fs skips dir entries order) : Lists fs' skips dir entries' order where
  nodup := horder.nodup
  mem_iff p := by
    rw [horder.mem_iff]
    exact ⟨fun hp => (h.scanned hfs hfs' hp).1, fun hp => (h.symm.scanned hfs' hfs hp).1⟩

end TreeScan

namespace Scanner

variable {fs : FileSystem} {dir : Path} {entries : List (String × Node)}

/-- Whether a scanner does not go into a directory. -/
def skips (s : Scanner) : String → Bool := TreeScan.skips s.excluded

/-- A scan gives findings and a count for which the scanned files account. -/
structure Exact (s : Scanner) (fs : FileSystem) (dir : Path) (entries : List (String × Node))
    (findings : Findings) (scannedFiles : Nat) : Prop where
  /-- The scan comes to its end. -/
  returned : (s.scan fs dir).value = ({ s with scannedFiles }, .ok findings)
  listed : ∃ order, Lists fs s.skips dir entries order
  /-- In whichever order the findings of the scanned files are merged, they are written the same. -/
  merged : ∀ order, Lists fs s.skips dir entries order →
    findings.sorted = (mergeFound s.engine fs order).sorted ∧ scannedFiles = order.length
  /-- The scanner can be used again. -/
  again : ((s.scan fs dir).value.1.scan fs dir).value = (s.scan fs dir).value
  /-- Nothing but the scanned files has an influence. -/
  stable : ∀ fs' entries', fs'.HoldsDir dir entries' → Answers fs' s.skips dir entries' →
    SameSources fs fs' s.skips dir entries entries' →
      ∃ found, (s.scan fs' dir).value = ({ s with scannedFiles }, .ok found) ∧
        found.sorted = findings.sorted

/-- A scan of a directory puts together what it has found before the walk ends. -/
theorem value_scan (s : Scanner) (h : fs.HoldsDir dir entries) :
    (s.scan fs dir).value =
      ({ s with scannedFiles := (walkOrder fs s.skips dir entries).length },
        (ending (walk fs s.skips dir entries)).map fun _ =>
          mergeFound s.engine fs (walkOrder fs s.skips dir entries)) := by
  simp only [scan, Logged.value_bind, TreeScan.value_scan h]
  rfl

theorem value_scan_of_answers (s : Scanner) (h : fs.HoldsDir dir entries)
    (hanswers : Answers fs s.skips dir entries) :
    (s.scan fs dir).value =
      ({ s with scannedFiles := (walkOrder fs s.skips dir entries).length },
        .ok (mergeFound s.engine fs (walkOrder fs s.skips dir entries))) := by
  rw [s.value_scan h, ending_walk_iff.2 hanswers]
  rfl

/-- A scan of a directory fails exactly if the system does not tell of some link that the walk reaches
whether it leads to a directory. -/
theorem scan_refused_iff (s : Scanner) (h : fs.HoldsDir dir entries) :
    (∃ cause, (s.scan fs dir).value.2 = .error cause) ↔ ¬ Answers fs s.skips dir entries := by
  rw [s.value_scan h, ← ending_walk_iff]
  cases ending (walk fs s.skips dir entries) <;> simp [Except.map]

end Scanner

end EnvAudit
