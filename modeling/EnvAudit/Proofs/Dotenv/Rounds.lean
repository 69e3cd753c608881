import EnvAudit.Proofs.Dotenv.Append

/-!
# Adding round after round

Suggestions are added to one environment file again and again, each time for other findings and with
another callback.  What stood in the file first stays in front, a variable is written at most once and
only if the file did not define it, and a round that writes nothing leaves the files alone.
-/

namespace EnvAudit.Dotenv

variable {fs fs' : FileSystem} {p : Path} {text more raw : List Char} {name : String}

theorem mem_missing_iff {findings : Findings} {item : String × Entry} :
    item ∈ missing text findings ↔
      item ∈ findings.sortedEntries ∧ item.2.suggested ≠ [] ∧ defines text item.1 = false := by
  simp [missing]

/-- One round of adding: what was found, and what the caller leaves out. -/
structure Round where
  findings : Findings
  callback : Option IgnoreCallback

namespace Round

variable {round : Round}

/-- Each name is there once, and none holds a carriage return. -/
structure Proper (round : Round) : Prop where
  names_nodup : round.findings.names.Nodup
  notMem_return : ∀ name ∈ round.findings.names, '\r' ∉ name.toList

/-- Whether the callback leaves out an entry. -/
def leavesOutEntry (round : Round) (item : String × Entry) : Bool :=
  leavesOut round.callback item.1 (item.2.suggested.map (·.file))

/-- The names the callback leaves out, of those a file with the text does not define. -/
def leftOut (round : Round) (text : List Char) : List String :=
  ((missing text round.findings).filter round.leavesOutEntry).map (·.1)

/-- The names and values that are added to a file with the text. -/
def added (round : Round) (text : List Char) : List (String × Option String) :=
  additions text round.findings (round.leftOut text).contains

/-- The names that are written to a file with the text. -/
def names (round : Round) (text : List Char) : List String := (round.added text).map (·.1)

theorem names_sublist (round : Round) (text : List Char) :
    (round.names text).Sublist (missingNames text round.findings) := by
  rw [names, added, additions, List.map_map]
  exact List.filter_sublist.map _

theorem defines_eq_false_of_mem_names (h : name ∈ round.names text) : defines text name = false := by
  have hmem := (names_sublist round text).subset h
  obtain ⟨item, hitem, rfl⟩ := List.mem_map.1 hmem
  exact (mem_missing_iff.1 hitem).2.2

theorem Proper.nodup_missingNames (h : round.Proper) (text : List Char) :
    (missingNames text round.findings).Nodup :=
  (Findings.sortedLT_namesWhere h.names_nodup _).nodup

theorem Proper.nodup_names (h : round.Proper) (text : List Char) : (round.names text).Nodup :=
  (h.nodup_missingNames text).sublist (names_sublist round text)

theorem Proper.notMem_return_of_mem_names (h : round.Proper) (hname : name ∈ round.names text) :
    '\r' ∉ name.toList := by
  have hmem := (names_sublist round text).subset hname
  exact h.notMem_return name ((Findings.mem_namesWhere_iff h.names_nodup).1 hmem).1

/-- What is missing but not written is left out by the callback. -/
theorem leavesOutEntry_of_notMem_names (h : round.Proper) {item : String × Entry}
    (hitem : item ∈ missing text round.findings) (hname : item.1 ∉ round.names text) :
    round.leavesOutEntry item = true := by
  have hleft : item.1 ∈ round.leftOut text := by
    by_contra hkept
    refine hname (List.mem_map.2 ⟨(item.1, item.2.value?), List.mem_map.2 ⟨item, ?_, rfl⟩, rfl⟩)
    simpa using ⟨hitem, hkept⟩
  obtain ⟨other, hother, hsame⟩ := List.mem_map.1 hleft
  obtain ⟨hmissing, hleaves⟩ := List.mem_filter.1 hother
  rwa [List.inj_on_of_nodup_map (h.nodup_missingNames text) hmissing hitem hsame] at hleaves

/-- Once a file defines what it defined before and all that a round has written, the same round
writes nothing. -/
theorem Proper.names_eq_nil (h : round.Proper)
    (hkept : ∀ name, defines text name = true → defines more name = true)
    (hwritten : ∀ name ∈ round.names text, defines more name = true) : round.names more = [] := by
  rw [List.eq_nil_iff_forall_not_mem]
  intro name hname
  have hundefined := defines_eq_false_of_mem_names hname
  obtain ⟨_, hadded, rfl⟩ := List.mem_map.1 hname
  obtain ⟨item, hitem, rfl⟩ := List.mem_map.1 hadded
  obtain ⟨hmissing, hunignored⟩ := List.mem_filter.1 hitem
  obtain ⟨hentry, hsuggested, -⟩ := mem_missing_iff.1 hmissing
  -- The entry was missing in the first round as well, and it was not written then.
  have hbefore : item ∈ missing text round.findings := by
    refine mem_missing_iff.2 ⟨hentry, hsuggested, eq_false_of_ne_true fun hdefines => ?_⟩
    rw [hkept _ hdefines] at hundefined
    cases hundefined
  have hunwritten : item.1 ∉ round.names text := by
    intro hmem
    rw [hwritten _ hmem] at hundefined
    cases hundefined
  have hleaves := leavesOutEntry_of_notMem_names h hbefore hunwritten
  have hleft : item.1 ∈ round.leftOut more :=
    List.mem_map_of_mem (List.mem_filter.2 ⟨hmissing, hleaves⟩)
  simp [hleft] at hunignored

end Round

/-! ## One call -/

/-- A call that was made: the files as it found them, its round, and what it has done. -/
structure Call where
  before : FileSystem
  round : Round
  outcome : Outcome

namespace Call

variable {call : Call} {round : Round} {outcome : Outcome}

/-- The names that the call has returned. -/
def written (call : Call) : List String := call.outcome.written

/-- The files as the call has left them. -/
def after (call : Call) : FileSystem := call.outcome.fileSystem

/-- What a call has done that found a text in the environment file. -/
structure Done (call : Call) (p : Path) (raw : List Char) : Prop where
  written_eq : call.written = call.round.names (Text.unifyNewlines raw)
  untouched : call.written = [] → call.after = call.before
  appended : call.written ≠ [] →
    call.before.append p (addedText (call.round.added (Text.unifyNewlines raw))) = .ok call.after

theorem append_ofCallback (hcontent : content fs p = .ok text) (round : Round) :
    append fs p round.findings (.ofCallback round.callback) =
      if round.names text = [] then .ok { fileSystem := fs, written := [] }
      else do
        let names := round.names text
        let fs' ← fs.append p (addedText (round.added text))
        let message := s!"Appended {names.length} suggestion(s) to {p}"
        return { fileSystem := fs', written := names, log := [⟨.debug, .dotenv, message⟩] } := by
  have hignored := IgnoreTest.ignoredNames_ofCallback round.callback
    (fun e => e.suggested.map (·.file)) (missing text round.findings)
  have hleft : ((missing text round.findings).filter fun item =>
      leavesOut round.callback item.1 (item.2.suggested.map (·.file))).map (·.1) =
      round.leftOut text := rfl
  have hnames : (round.added text).map (·.1) = round.names text := rfl
  rw [hleft] at hignored
  rw [append, hcontent]
  simp only [bind, Except.bind, hignored, List.isEmpty_iff]
  rw [← Round.added, hnames]
  split
  · rename_i hnil
    rw [hnil]
    rfl
  · rfl

theorem done (hraw : IsText fs p raw)
    (h : append fs p round.findings (.ofCallback round.callback) = .ok outcome) :
    (Call.mk fs round outcome).Done p raw := by
  rw [append_ofCallback (content_eq_ok_iff.2 ⟨raw, hraw, rfl⟩)] at h
  split at h
  · rename_i hnil
    cases h
    exact ⟨hnil.symm, fun _ => rfl, fun hne => absurd rfl hne⟩
  · rename_i hne
    cases happend : fs.append p (addedText (round.added (Text.unifyNewlines raw))) with
    | error cause => simp [happend, bind, Except.bind] at h
    | ok fs' =>
        simp only [happend, bind, Except.bind, pure, Except.pure, Except.ok.injEq] at h
        subst h
        exact ⟨rfl, fun hnil => absurd hnil hne, fun _ => happend⟩

theorem exists_append_ofCallback {place : List String} (hraw : IsText fs p raw)
    (hplace : fs.Writable p place) (round : Round) :
    ∃ outcome, append fs p round.findings (.ofCallback round.callback) = .ok outcome := by
  have happend : ∃ fs', fs.append p (addedText (round.added (Text.unifyNewlines raw))) = .ok fs' :=
    ⟨_, hplace.modifyFile_eq _⟩
  obtain ⟨fs', happend⟩ := happend
  rw [append_ofCallback (content_eq_ok_iff.2 ⟨raw, hraw, rfl⟩)]
  split
  · exact ⟨_, rfl⟩
  · rw [happend]
    exact ⟨_, rfl⟩

namespace Done

theorem sound (h : call.Done p raw) (hfs : call.before.Sound) : call.after.Sound := by
  by_cases hnil : call.written = []
  · rwa [h.untouched hnil]
  · exact (FileSystem.append_eq_ok_iff.1 (h.appended hnil)).sound hfs

/-- The text that was there stays in front, and what is written is defined behind it. -/
theorem exists_isText (h : call.Done p raw) (hfs : call.before.Sound)
    (hraw : IsText call.before p raw) (hround : call.round.Proper) :
    ∃ rest, IsText call.after p (raw ++ rest) ∧
      ∀ name ∈ call.written, defines (Text.unifyNewlines (raw ++ rest)) name = true := by
  by_cases hnil : call.written = []
  · refine ⟨[], ?_, by simp [hnil]⟩
    rwa [h.untouched hnil, List.append_nil]
  · refine ⟨_, hraw.append hfs (h.appended hnil), fun name hname => ?_⟩
    rw [h.written_eq] at hname
    have hreturn := hround.notMem_return_of_mem_names hname
    obtain ⟨⟨_, value⟩, hadded, rfl⟩ := List.mem_map.1 hname
    exact defines_addedText hreturn hadded raw

/-- The bytes that were there stay in front. -/
theorem exists_bytes (h : call.Done p raw) (hfs : call.before.Sound) {bytes : ByteArray}
    (hbytes : call.before.bytes? p = some bytes) :
    ∃ rest, call.after.bytes? p = some (bytes ++ rest) := by
  by_cases hnil : call.written = []
  · refine ⟨.empty, ?_⟩
    rwa [h.untouched hnil, ByteArray.append_empty]
  · have hwritten := (FileSystem.append_eq_ok_iff.1 (h.appended hnil)).bytes?_self hfs
    rw [hbytes, Option.getD_some] at hwritten
    exact ⟨_, hwritten⟩

theorem exists_writable (h : call.Done p raw) (hfs : call.before.Sound)
    (hplace : ∃ place, call.before.Writable p place) : ∃ place, call.after.Writable p place := by
  by_cases hnil : call.written = []
  · rwa [h.untouched hnil]
  · have hwritten := (FileSystem.append_eq_ok_iff.1 (h.appended hnil)).bytes?_self hfs
    exact FileSystem.exists_writable_of_bytes? hwritten

end Done

end Call

/-! ## A run of calls -/

/-- Makes one call after the other; each finds the files as the one before has left them. -/
def appendAll (p : Path) : FileSystem → List Round → Except FileError (List Call)
  | _, [] => .ok []
  | fs, round :: rounds => do
    let outcome ← append fs p round.findings (.ofCallback round.callback)
    let calls ← appendAll p outcome.fileSystem rounds
    return ⟨fs, round, outcome⟩ :: calls

/-- What holds of the calls made on an environment file that had the text at the start. -/
structure Kept (fs : FileSystem) (p : Path) (text : List Char) (calls : List Call) : Prop where
  bytes_kept : ∀ bytes, fs.bytes? p = some bytes → ∀ call ∈ calls,
    ∃ rest, call.after.bytes? p = some (bytes ++ rest)
  undefined : ∀ call ∈ calls, ∀ name ∈ call.written, defines text name = false
  written_once : (calls.flatMap Call.written).Nodup
  untouched : ∀ call ∈ calls, call.written = [] → call.after = call.before
  repeated : calls.IsChain fun call next => next.round = call.round → next.written = []

theorem Kept.nil (fs : FileSystem) (p : Path) (text : List Char) : Kept fs p text [] where
  bytes_kept := by simp
  undefined := by simp
  written_once := List.nodup_nil
  untouched := by simp
  repeated := .nil

variable {rounds : List Round} {calls : List Call}

theorem appendAll_cons_eq_ok_iff {round : Round} :
    appendAll p fs (round :: rounds) = .ok calls ↔
      ∃ outcome, append fs p round.findings (.ofCallback round.callback) = .ok outcome ∧
        ∃ others, appendAll p outcome.fileSystem rounds = .ok others ∧
          calls = ⟨fs, round, outcome⟩ :: others := by
  rw [appendAll]
  cases append fs p round.findings (.ofCallback round.callback) with
  | error cause => simp [bind, Except.bind]
  | ok outcome =>
      cases hothers : appendAll p outcome.fileSystem rounds <;>
        simp [bind, Except.bind, pure, Except.pure, hothers, eq_comm]

/-- The first call of a run writes the names of its round. -/
theorem written_eq_of_mem_head? (hraw : IsText fs p raw) (h : appendAll p fs rounds = .ok calls)
    {call : Call} (hcall : call ∈ calls.head?) :
    call.written = call.round.names (Text.unifyNewlines raw) := by
  cases rounds with
  | nil =>
      obtain rfl := Except.ok.inj h
      cases hcall
  | cons round rounds =>
      obtain ⟨outcome, happend, others, -, rfl⟩ := appendAll_cons_eq_ok_iff.1 h
      obtain rfl := Option.some.inj hcall
      exact (Call.done hraw happend).written_eq

/-- A call in front of a run keeps what the run keeps. -/
theorem Kept.cons {call : Call} (hcall : call.Done p raw) (hfs : call.before.Sound)
    (hraw : IsText call.before p raw) (hround : call.round.Proper)
    (hcalls : ∀ more, IsText call.after p more →
      Kept call.after p (Text.unifyNewlines more) calls ∧
        ∀ next ∈ calls.head?, next.written = next.round.names (Text.unifyNewlines more)) :
    Kept call.before p (Text.unifyNewlines raw) (call :: calls) := by
  obtain ⟨rest, hrest, hwritten⟩ := hcall.exists_isText hfs hraw hround
  obtain ⟨hkept, hhead⟩ := hcalls _ hrest
  have hdefines : ∀ name, defines (Text.unifyNewlines raw) name = true →
      defines (Text.unifyNewlines (raw ++ rest)) name = true :=
    fun name => defines_of_prefix (Text.unifyNewlines_prefix raw rest)
  constructor
  case bytes_kept =>
    intro bytes hbytes other hother
    obtain ⟨first, hfirst⟩ := hcall.exists_bytes hfs hbytes
    rcases List.mem_cons.1 hother with rfl | hother
    · exact ⟨first, hfirst⟩
    · obtain ⟨second, hsecond⟩ := hkept.bytes_kept _ hfirst other hother
      exact ⟨first ++ second, by rw [hsecond, ByteArray.append_assoc]⟩
  case undefined =>
    intro other hother name hname
    rcases List.mem_cons.1 hother with rfl | hother
    · rw [hcall.written_eq] at hname
      exact Round.defines_eq_false_of_mem_names hname
    · refine eq_false_of_ne_true fun htrue => ?_
      have hundefined := hkept.undefined other hother name hname
      rw [hdefines name htrue] at hundefined
      cases hundefined
  case written_once =>
    rw [List.flatMap_cons, List.nodup_append]
    refine ⟨?_, hkept.written_once, ?_⟩
    · rw [hcall.written_eq]
      exact hround.nodup_names _
    · rintro name hname _ hlater rfl
      obtain ⟨other, hother, hlater⟩ := List.mem_flatMap.1 hlater
      have hundefined := hkept.undefined other hother name hlater
      rw [hwritten name hname] at hundefined
      cases hundefined
  case untouched =>
    intro other hother
    rcases List.mem_cons.1 hother with rfl | hother
    · exact hcall.untouched
    · exact hkept.untouched other hother
  case repeated =>
    refine List.isChain_cons.2 ⟨fun next hnext hsame => ?_, hkept.repeated⟩
    rw [hhead next hnext, hsame]
    rw [hcall.written_eq] at hwritten
    exact hround.names_eq_nil hdefines hwritten

theorem kept_of_appendAll (hfs : fs.Sound) (hraw : IsText fs p raw)
    (hrounds : ∀ round ∈ rounds, round.Proper) (h : appendAll p fs rounds = .ok calls) :
    Kept fs p (Text.unifyNewlines raw) calls := by
  induction rounds generalizing fs raw calls with
  | nil =>
      obtain rfl := Except.ok.inj h
      exact .nil fs p _
  | cons round rounds ih =>
      obtain ⟨outcome, happend, others, hothers, rfl⟩ := appendAll_cons_eq_ok_iff.1 h
      have hdone := Call.done hraw happend
      refine Kept.cons hdone hfs hraw (hrounds round List.mem_cons_self) fun more hmore => ?_
      have hproper : ∀ other ∈ rounds, other.Proper :=
        fun other hother => hrounds other (List.mem_cons_of_mem _ hother)
      exact ⟨ih (hdone.sound hfs) hmore hproper hothers,
        fun next hnext => written_eq_of_mem_head? hmore hothers hnext⟩

theorem exists_appendAll_eq_ok (hfs : fs.Sound) (hraw : IsText fs p raw)
    (hrounds : ∀ round ∈ rounds, round.Proper) (hplace : ∃ place, fs.Writable p place) :
    ∃ calls, appendAll p fs rounds = .ok calls := by
  induction rounds generalizing fs raw with
  | nil => exact ⟨[], rfl⟩
  | cons round rounds ih =>
      obtain ⟨place, hplace'⟩ := hplace
      obtain ⟨outcome, happend⟩ := Call.exists_append_ofCallback hraw hplace' round
      have hdone := Call.done hraw happend
      obtain ⟨rest, hrest, -⟩ := hdone.exists_isText hfs hraw (hrounds round List.mem_cons_self)
      have hproper : ∀ other ∈ rounds, other.Proper :=
        fun other hother => hrounds other (List.mem_cons_of_mem _ hother)
      obtain ⟨others, hothers⟩ :=
        ih (hdone.sound hfs) hrest hproper (hdone.exists_writable hfs ⟨place, hplace'⟩)
      exact ⟨_, appendAll_cons_eq_ok_iff.2 ⟨outcome, happend, others, hothers, rfl⟩⟩

theorem map_round_of_appendAll (h : appendAll p fs rounds = .ok calls) :
    calls.map (·.round) = rounds := by
  induction rounds generalizing fs calls with
  | nil =>
      obtain rfl := Except.ok.inj h
      rfl
  | cons round rounds ih =>
      obtain ⟨outcome, -, others, hothers, rfl⟩ := appendAll_cons_eq_ok_iff.1 h
      rw [List.map_cons, ih hothers]

/-- Calls are made one after the other on an environment file that holds a text or is not there yet.
They succeed where the file can be written.  The bytes that stood in it stay in front, no variable is
written that was defined, none is written twice, a call that writes none leaves the files as they are,
and so does a call that repeats the one before. -/
theorem appendAll_keeps (hfs : fs.Sound) (hraw : IsText fs p raw)
    (hrounds : ∀ round ∈ rounds, round.Proper) :
    ((∃ place, fs.Writable p place) → ∃ calls, appendAll p fs rounds = .ok calls) ∧
      ∀ calls, appendAll p fs rounds = .ok calls →
        calls.map (·.round) = rounds ∧ Kept fs p (Text.unifyNewlines raw) calls :=
  ⟨exists_appendAll_eq_ok hfs hraw hrounds, fun _ h =>
    ⟨map_round_of_appendAll h, kept_of_appendAll hfs hraw hrounds h⟩⟩

/-- A directory with an environment file that ends in the middle of a line. -/
def hostFiles : FileSystem where
  root := .dir [("work", .dir [(".env", .file "export HOST=a\r\nPORT=1".toUTF8)])]
  cwd := ["work"]

/-- A round that finds a variable the file defines, one that is left out and one that is written. -/
def hostRound : Round where
  findings := ⟨[("HOST", { suggested := [⟨"a.js", some "a", none⟩] }),
    ("PORT_NO", { suggested := [⟨"b.js", some "80", none⟩] }),
    ("TOKEN", { suggested := [⟨"a.js", some "one\n\"two\"", some .high⟩] })]⟩
  callback := some ⟨fun _ => false, (· == "b.js")⟩

theorem appendAll_keeps_hostFiles :
    hostFiles.Sound ∧ IsText hostFiles ⟨.here, [".env"]⟩ "export HOST=a\r\nPORT=1".toList ∧
      (∀ round ∈ [hostRound, hostRound], round.Proper) ∧
        ∃ calls, appendAll ⟨.here, [".env"]⟩ hostFiles [hostRound, hostRound] = .ok calls ∧
          Kept hostFiles ⟨.here, [".env"]⟩
            (Text.unifyNewlines "export HOST=a\r\nPORT=1".toList) calls := by
  have hsound : hostFiles.Sound := by decide
  have hbytes : hostFiles.bytes? ⟨.here, [".env"]⟩ = some "export HOST=a\r\nPORT=1".toUTF8 := by
    decide +kernel
  have htext : IsText hostFiles ⟨.here, [".env"]⟩ "export HOST=a\r\nPORT=1".toList :=
    .inr ⟨_, hbytes, by decide⟩
  have hproper : ∀ round ∈ [hostRound, hostRound], round.Proper := by
    have hhost : hostRound.Proper := ⟨by decide, by decide⟩
    simp [hhost]
  obtain ⟨hcalls, hkept⟩ := appendAll_keeps hsound htext hproper
  obtain ⟨calls, hok⟩ := hcalls (FileSystem.exists_writable_of_bytes? hbytes)
  exact ⟨hsound, htext, hproper, calls, hok, (hkept calls hok).2⟩

end EnvAudit.Dotenv
