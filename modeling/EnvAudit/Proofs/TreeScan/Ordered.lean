import EnvAudit.Proofs.Dotenv.Captured
import EnvAudit.Proofs.FileSystem.Direct
import EnvAudit.Proofs.Finding.Ordered
import EnvAudit.Proofs.TreeScan.Moved

/-!
# Findings in the order of paths

A walk goes from file to file in the order of paths, where paths are compared name by name.  A scan keeps
this order in every entry, so that of several files the one that comes first gives the value which is
shown.  It need not be first in the list of files, which is sorted by how the paths are spelled.
-/

namespace EnvAudit

open TreeScan

namespace Path

/-- The names on the way to a file that is given by its spelling. -/
def componentsOf (file : String) : List String := (ofString file).parts

/-- The path to one file is before that to another, name by name. -/
def Precedes (a b : String) : Prop := componentsOf a < componentsOf b

instance (a b : String) : Decidable (Precedes a b) :=
  inferInstanceAs (Decidable (componentsOf a < componentsOf b))

theorem nodup_of_pairwise_precedes {files : List String} (h : files.Pairwise Precedes) :
    files.Nodup := by
  refine h.imp fun hlt => ?_
  rintro rfl
  exact lt_irrefl _ hlt

/-- A path that was spelled is read name by name. -/
theorem componentsOf_toString {p : Path} (h : ∀ name ∈ p.parts, PathName name) :
    componentsOf p.toString = p.parts := by
  obtain ⟨root, parts⟩ := p
  by_cases hne : parts = []
  · subst hne
    cases root <;> decide
  have hspelling : toString ⟨root, parts⟩ = root.spelling ++ "/".intercalate parts := by
    obtain ⟨first, more, rfl⟩ := List.exists_cons_of_ne_nil hne
    cases root <;> rfl
  have hsteps := FileSystem.steps_intercalate hne h
  rw [componentsOf, parts_ofString, hspelling]
  cases root with
  | here => rw [PathRoot.spelling, String.empty_append, hsteps, filter_pathNames h]
  | slash =>
      have hspelled := FileSystem.steps_append "" ("/".intercalate parts)
      rw [String.empty_append, hsteps] at hspelled
      rw [PathRoot.spelling, hspelled, List.filter_append, filter_pathNames h]
      rfl
  | twoSlashes =>
      have hspelled := FileSystem.steps_append "/" ("/".intercalate parts)
      rw [hsteps] at hspelled
      rw [PathRoot.spelling, show "//" = "/" ++ "/" from rfl, hspelled, List.filter_append,
        filter_pathNames h]
      rfl

theorem componentsOf_descend {root : String} {names : List String}
    (hnames : ∀ name ∈ names, ValidName name) :
    componentsOf ((ofString root).descend names).toString = componentsOf root ++ names := by
  apply componentsOf_toString
  intro name hname
  rcases List.mem_append.1 hname with hname | hname
  · exact pathName_parts_ofString root name hname
  · exact (hnames name hname).pathName

end Path

/-! ## The order of the walk -/

namespace Node

mutual

/-- The names in each directory of a tree are in strictly increasing order. -/
def Ordered : Node → Prop
  | .dir entries => OrderedIn entries
  | .file _ | .locked | .link _ => True

def OrderedIn : List (String × Node) → Prop
  | [] => True
  | (name, node) :: rest => (∀ other ∈ rest.map (·.1), name < other) ∧ node.Ordered ∧ OrderedIn rest

end

variable {entries rest : List (String × Node)} {name : String} {node : Node}

theorem orderedIn_insertEntry (hname : name ∉ rest.map (·.1)) (hnode : node.Ordered)
    (h : OrderedIn rest) : OrderedIn (insertEntry name node rest) := by
  induction rest with
  | nil => exact ⟨nofun, hnode, h⟩
  | cons first rest ih =>
      obtain ⟨other, found⟩ := first
      obtain ⟨hless, hfound, hrest⟩ := h
      rw [List.map_cons, List.mem_cons, not_or] at hname
      rw [insertEntry]
      split
      · rename_i hle
        have hlt : name < other := lt_of_le_of_ne hle hname.1
        refine ⟨fun more hmore => ?_, hnode, hless, hfound, hrest⟩
        rcases List.mem_cons.1 hmore with rfl | hmore
        · exact hlt
        · exact hlt.trans (hless more hmore)
      · rename_i hle
        refine ⟨fun more hmore => ?_, hfound, ih hname.2 hrest⟩
        rw [(perm_map_fst_insertEntry name node rest).mem_iff, List.mem_cons] at hmore
        rcases hmore with rfl | hmore
        · exact lt_of_not_ge hle
        · exact hless more hmore

mutual

theorem ordered_inOrder : (node : Node) → node.WellFormed → node.inOrder.Ordered
  | .dir entries, h => orderedIn_entriesInOrder entries h
  | .file _, _ | .locked, _ | .link _, _ => trivial

theorem orderedIn_entriesInOrder : (entries : List (String × Node)) → WellFormedIn entries →
    OrderedIn (entriesInOrder entries)
  | [], _ => trivial
  | (_, node) :: rest, h =>
    orderedIn_insertEntry (fun hmem => h.2.1 ((perm_map_fst_entriesInOrder rest).mem_iff.1 hmem))
      (ordered_inOrder node h.2.2.1) (orderedIn_entriesInOrder rest h.2.2.2)

end

end Node

namespace TreeScan

variable {engine : Engine} {fs : FileSystem} {dir p q : Path} {root : String}
variable {skips : String → Bool} {leadsToDir : Path → Except FileError Bool} {order : List Path}
variable {entries rest : List (String × Node)} {name : String} {node : Node}

/-- What lies below one name comes before what lies below the names after it. -/
theorem parts_lt_parts (hless : ∀ other ∈ rest.map (·.1), name < other)
    (hp : p ∈ filePaths (visits leadsToDir skips (dir.child name) node))
    (hq : q ∈ filePaths (visitsIn leadsToDir skips dir rest)) : p.parts < q.parts := by
  rw [mem_filePaths_iff, mem_visits_iff (tells_file p)] at hp
  rw [mem_filePaths_iff, mem_visitsIn_iff (tells_file q)] at hq
  obtain ⟨names, found, hleads, hmet⟩ := hp
  obtain ⟨others, other, hothers, hmet'⟩ := hq
  obtain rfl := eq_of_met?_eq_file hmet
  obtain rfl := eq_of_met?_eq_file hmet'
  obtain ⟨first, more, rfl⟩ := List.exists_cons_of_ne_nil hleads.ne_nil
  obtain ⟨second, more', rfl⟩ := List.exists_cons_of_ne_nil hothers.ne_nil
  have hfirst : first = name := by simpa using hleads.head_mem
  have hlt : first :: more < second :: more' :=
    List.Lex.rel (hfirst ▸ hless second hothers.head_mem)
  exact List.append_left_lt hlt

mutual

theorem pairwise_filePaths_visits (dir : Path) (name : String) : (node : Node) → node.Ordered →
    (filePaths (visits leadsToDir skips (dir.child name) node)).Pairwise (·.parts < ·.parts)
  | .dir inner, h => by
    rw [visits]
    split
    · exact .nil
    · exact pairwise_filePaths_visitsIn (dir.child name) inner h
  | .link _, _ => by
    rw [visits]
    split
    · exact .nil
    · exact List.pairwise_singleton _ _
    · exact .nil
  | .file _, _ | .locked, _ => List.pairwise_singleton _ _

/-- In a tree whose names are in order the walk comes upon files in the order of their paths. -/
theorem pairwise_filePaths_visitsIn (dir : Path) : (entries : List (String × Node)) →
    Node.OrderedIn entries →
      (filePaths (visitsIn leadsToDir skips dir entries)).Pairwise (·.parts < ·.parts)
  | [], _ => .nil
  | (name, node) :: rest, h => by
    rw [visitsIn, filePaths_append, List.pairwise_append]
    exact ⟨pairwise_filePaths_visits dir name node h.2.1,
      pairwise_filePaths_visitsIn dir rest h.2.2, fun p hp q hq => parts_lt_parts h.1 hp hq⟩

end

/-- The scanned files are spelled in the order of their paths. -/
theorem pairwise_walkOrder (h : fs.HoldsDir (.ofString root) entries) :
    ((walkOrder fs skips (.ofString root) entries).map Path.toString).Pairwise Path.Precedes := by
  have hsublist : (walkOrder fs skips (.ofString root) entries).Sublist
      (filePaths (walk fs skips (.ofString root) entries)) :=
    (List.filter_sublist).trans ((answered_sublist _).filterMap _)
  have hordered : (walkOrder fs skips (.ofString root) entries).Pairwise (·.parts < ·.parts) :=
    (pairwise_filePaths_visitsIn _ _
      (Node.orderedIn_entriesInOrder entries h.wellFormed)).sublist hsublist
  have hparts : ∀ p ∈ walkOrder fs skips (.ofString root) entries,
      Path.componentsOf p.toString = p.parts := by
    intro p hp
    obtain ⟨names, node, hleads, hmet⟩ :=
      (mem_walk_iff (tells_file p)).1 (mem_filePaths_iff.1 (hsublist.subset hp))
    obtain rfl := eq_of_met?_eq_file hmet
    exact Path.componentsOf_descend (hleads.validName h.wellFormed)
  rw [List.pairwise_map]
  refine hordered.imp_of_mem fun hp hq hlt => ?_
  rwa [Path.Precedes, hparts _ hp, hparts _ hq]

end TreeScan

/-! ## What is recorded in the order of the walk -/

namespace FileScan

open Findings

variable {engine : Engine} {fs : FileSystem} {p : Path}

theorem follows_scanText (engine : Engine) (language : Language) (file : String) (text : List Char) :
    (scanText engine language file text).value.Follows [file] := by
  rw [value_scanText]
  apply List.foldlRecOn
  · apply List.foldlRecOn
    · exact follows_empty [file]
    · exact fun f hf name _ => hf.addUsage name
  · intro f hf j _
    rw [recordJudged]
    cases j.severity with
    | none => exact hf
    | some severity =>
        exact Follows.addSuggestion (s := { file, value := j.literal, severity := some severity }) hf
          j.name rfl

theorem follows_foundAt (engine : Engine) (fs : FileSystem) (p : Path) :
    (foundAt engine fs p).Follows [p.toString] := by
  cases hlanguage : Language.ofPath? p with
  | none =>
      rw [foundAt, hlanguage]
      exact follows_empty _
  | some language =>
      cases hread : fs.read p with
      | ok bytes =>
          rw [foundAt_of_read hlanguage hread]
          exact follows_scanText engine language _ _
      | error cause =>
          rw [foundAt_of_bytes?_eq_none]
          · exact follows_empty _
          · rw [FileSystem.bytes?, hread]
            rfl

end FileScan

namespace TreeScan

variable {order : List Path} {f : Findings} {done : List String}

theorem follows_foldl (engine : Engine) (fs : FileSystem) (h : f.Follows done)
    (hnodup : (done ++ order.map Path.toString).Nodup) :
    (order.foldl (fun findings p => findings.merge (FileScan.foundAt engine fs p)) f).Follows
      (done ++ order.map Path.toString) := by
  induction order generalizing f done with
  | nil => rwa [List.map_nil, List.append_nil]
  | cons p order ih =>
      have hsplit : done ++ (p :: order).map Path.toString =
          (done ++ [p.toString]) ++ order.map Path.toString := by
        rw [List.map_cons, List.append_assoc, List.singleton_append]
      rw [hsplit] at hnodup ⊢
      exact ih (h.merge (FileScan.follows_foundAt engine fs p) (List.nodup_append'.1 hnodup).1) hnodup

theorem follows_mergeFound (engine : Engine) (fs : FileSystem)
    (h : (order.map Path.toString).Nodup) :
    (mergeFound engine fs order).Follows (order.map Path.toString) :=
  follows_foldl engine fs (Findings.follows_empty []) h

end TreeScan

/-! ## The value that is shown -/

/-- The value belongs to the suggestion for the file that comes first of those with a value that is not
empty, and there is none if all values are empty. -/
def LeastValue (suggested : List Suggestion) : Option String → Prop
  | none => ∀ s ∈ suggested, s.value.getD "" = ""
  | some value => value ≠ "" ∧ ∃ s ∈ suggested, s.value = some value ∧
      ∀ t ∈ suggested, t.value.getD "" ≠ "" → t = s ∨ Path.Precedes s.file t.file

/-- Where suggestions are in the order of paths, the first value is that of the least path. -/
theorem leastValue_of_pairwise {suggested : List Suggestion}
    (h : (suggested.map (·.file)).Pairwise Path.Precedes) :
    LeastValue suggested ((suggested.filterMap (·.value)).find? (· != "")) := by
  induction suggested with
  | nil => exact nofun
  | cons s more ih =>
      obtain ⟨hfirst, hmore⟩ := List.pairwise_cons.1 h
      by_cases hempty : s.value.getD "" = ""
      · -- The first suggestion has no value to show, and the others decide.
        have hskip : ((s :: more).filterMap (·.value)).find? (· != "") =
            (more.filterMap (·.value)).find? (· != "") := by
          rw [List.filterMap_cons]
          cases hvalue : s.value with
          | none => rfl
          | some value =>
              rw [hvalue, Option.getD_some] at hempty
              simp [hempty]
        have hrest := ih hmore
        rw [hskip]
        cases hfound : (more.filterMap (·.value)).find? (· != "") with
        | none =>
            rw [hfound] at hrest
            exact List.forall_mem_cons.2 ⟨hempty, hrest⟩
        | some value =>
            rw [hfound] at hrest
            obtain ⟨hne, t, ht, hvalue, hleast⟩ := hrest
            refine ⟨hne, t, List.mem_cons_of_mem s ht, hvalue, List.forall_mem_cons.2 ⟨?_, hleast⟩⟩
            exact fun hs => absurd hempty hs
      · obtain ⟨value, hvalue⟩ : ∃ value, s.value = some value := by
          rw [← Option.isSome_iff_exists, Option.isSome_iff_ne_none]
          rintro hnone
          rw [hnone] at hempty
          exact hempty rfl
        have hne : value ≠ "" := by simpa [hvalue] using hempty
        have hfound : ((s :: more).filterMap (·.value)).find? (· != "") = some value := by
          rw [List.filterMap_cons, hvalue]
          exact List.find?_cons_of_pos (bne_iff_ne.2 hne)
        rw [hfound]
        refine ⟨hne, s, List.mem_cons_self, hvalue, fun t ht _ => ?_⟩
        exact (List.mem_cons.1 ht).imp id fun ht => hfirst t.file (List.mem_map_of_mem ht)

/-- An entry that tells of files in the order of their paths. -/
structure Entry.InPathOrder (e : Entry) : Prop where
  usage : e.usage.Pairwise Path.Precedes
  suggested : e.files.Pairwise Path.Precedes
  rated : e.Rated
  isTold : e.IsTold

namespace Findings

variable {f : Findings} {files : List String} {name : String} {e : Entry}

theorem Follows.inPathOrder (h : f.Follows files) (hfiles : files.Pairwise Path.Precedes)
    (he : (name, e) ∈ f.entries) : e.InPathOrder := by
  obtain rfl := get_of_mem h.wellFormed.names_nodup he
  have hentry := h.entry name
  exact ⟨hfiles.sublist hentry.usage, hfiles.sublist hentry.suggested, hentry.rated,
    h.isTold name (List.mem_map_of_mem he)⟩

theorem Follows.leastValue (h : f.Follows files) (hfiles : files.Pairwise Path.Precedes)
    (name : String) : LeastValue (f.get name).suggested (f.get name).value? :=
  leastValue_of_pairwise (hfiles.sublist (h.entry name).suggested)

end Findings

/-- What is added to an environment file is what is missing there and not ignored. -/
theorem Dotenv.exists_additions {fs : FileSystem} {p : Path} {findings : Findings} {test : IgnoreTest}
    {outcome : Outcome} (h : append fs p findings test = .ok outcome) :
    ∃ text ignored, outcome.written = (additions text findings ignored).map (·.1) ∧
      (additions text findings ignored = [] ∧ outcome.fileSystem = fs ∨
        fs.append p (addedText (additions text findings ignored)) = .ok outcome.fileSystem) := by
  simp only [append, bind, Except.bind, pure, Except.pure] at h
  split at h
  · cases h
  split at h
  · cases h
  split at h
  · rename_i hempty
    obtain rfl := Except.ok.inj h
    exact ⟨_, _, rfl, .inl ⟨List.map_eq_nil_iff.1 (List.isEmpty_iff.1 hempty), rfl⟩⟩
  split at h
  · cases h
  · rename_i fs' hfs'
    obtain rfl := Except.ok.inj h
    exact ⟨_, _, rfl, .inr hfs'⟩

namespace Scanner

variable {fs : FileSystem} {root : String} {entries : List (String × Node)}

/-- A scan of a directory tree, which ends if the system answers what it is asked, gives entries of which
each tells of some file, and of files in the order of their paths, with a severity wherever it suggests.
Whatever is reported then or added to an environment file has the value of the file that comes first of
those with a value. -/
theorem scan_in_order (s : Scanner) (h : fs.HoldsDir (.ofString root) entries) :
    (Answers fs s.skips (.ofString root) entries →
      ∃ findings, (s.scan fs (.ofString root)).value.2 = .ok findings) ∧
    ∀ findings, (s.scan fs (.ofString root)).value.2 = .ok findings →
      (∀ name e, (name, e) ∈ findings.entries → e.InPathOrder) ∧
        (∀ (test : IgnoreTest) threshold report, test.report findings threshold = .ok report →
          ∀ v ∈ report.suggested, LeastValue (findings.get v.name).suggested v.value) ∧
        ∀ (fs' : FileSystem) p test outcome, Dotenv.append fs' p findings test = .ok outcome →
          ∃ added, outcome.written = added.map (·.1) ∧
            (added = [] ∧ outcome.fileSystem = fs' ∨
              fs'.append p (Dotenv.addedText added) = .ok outcome.fileSystem) ∧
            ∀ item ∈ added, LeastValue (findings.get item.1).suggested item.2 := by
  have hwalk : ((walkOrder fs s.skips (.ofString root) entries).map Path.toString).Pairwise
      Path.Precedes := pairwise_walkOrder h
  have hfollows := follows_mergeFound s.engine fs (Path.nodup_of_pairwise_precedes hwalk)
  have hnames := hfollows.wellFormed.names_nodup
  refine ⟨fun hanswers => ⟨_, by rw [s.value_scan_of_answers h hanswers]⟩, fun findings hscan => ?_⟩
  rw [s.value_scan h] at hscan
  obtain ⟨_, -, hfindings⟩ := map_eq_ok_iff.1 hscan
  rw [← hfindings]
  refine ⟨?_, ?_, ?_⟩
  · intro name e he
    exact hfollows.inPathOrder hwalk he
  · intro test threshold report hreport v hv
    obtain ⟨ignored, rfl⟩ := IgnoreTest.exists_report_eq_build hreport
    rw [Report.suggested_build, List.mem_mergeSort] at hv
    rw [Report.eq_suggestionOf_of_mem hnames hv]
    exact hfollows.leastValue hwalk v.name
  · intro fs' p test outcome happend
    obtain ⟨text, ignored, hwritten, happended⟩ := Dotenv.exists_additions happend
    refine ⟨_, hwritten, happended, fun item hitem => ?_⟩
    rw [(Dotenv.of_mem_additions hnames hitem).2]
    exact hfollows.leastValue hwalk item.1

/-- Two files of which the first in the order of names is the second in the order of spellings. -/
def nestedEntries : List (String × Node) :=
  [("a.js", .file "const password = 'hunter2';\n".toUTF8),
    ("a", .dir [("b.js", .file "const password = 's3cret';\n".toUTF8)])]

def nestedFiles : FileSystem := { root := .dir nestedEntries }

theorem scan_in_order_nestedFiles :
    nestedFiles.HoldsDir (.ofString ".") nestedEntries ∧
      Answers nestedFiles ({} : Scanner).skips (.ofString ".") nestedEntries ∧ "a.js" < "a/b.js" ∧
        ∃ findings, (({} : Scanner).scan nestedFiles (.ofString ".")).value.2 = .ok findings ∧
          (findings.get "password").files = ["a/b.js", "a.js"] ∧
            ∀ (test : IgnoreTest) threshold report, test.report findings threshold = .ok report →
              ∀ v ∈ report.suggested, LeastValue (findings.get v.name).suggested v.value := by
  have h : nestedFiles.HoldsDir (.ofString ".") nestedEntries :=
    FileSystem.holdsDir_of_no_parts .here rfl (by decide)
  have hanswers : Answers nestedFiles ({} : Scanner).skips (.ofString ".") nestedEntries :=
    ending_walk_iff.1 (by decide +kernel)
  obtain ⟨hends, hfound⟩ := scan_in_order {} h
  obtain ⟨findings, hscan⟩ := hends hanswers
  have hfiles : (({} : Scanner).scan nestedFiles (.ofString ".")).value.2.toOption.map
      (fun findings => (findings.get "password").files) = some ["a/b.js", "a.js"] := by
    decide +kernel
  rw [hscan] at hfiles
  exact ⟨h, hanswers, by decide, findings, hscan, Option.some.inj hfiles, (hfound findings hscan).2.1⟩

end Scanner

end EnvAudit
