import EnvAudit.Proofs.Language.Placed
import EnvAudit.Proofs.Pattern.Fenced
import EnvAudit.Proofs.Pattern.Marks
import EnvAudit.Proofs.Pattern.Named
import EnvAudit.Proofs.Pattern.Names

/-!
# Candidates line by line

Assignments of the shell and keys of mappings are found in each line for itself.  A pattern that reads
to the end of its line finds one of them at most, and no line end is read on the way, so a key without
a value takes none from the next line and leaves the key there to be found.
-/

namespace EnvAudit

open Pattern

namespace Pattern

variable {p : Pattern} {content : List Char}

theorem matchesFrom_eq_nil_of_le (hp : 0 < p.ownWidth.least) {before after : List Char} {free : ℕ}
    (h : before.length + after.length ≤ free) :
    p.matchesFrom before before.length free after = [] := by
  induction after generalizing before with
  | nil =>
      rw [matchesFrom, matchesAt_eq_toList hp, matchAt?_end hp]
      exact ite_self _
  | cons c after ih =>
      rw [List.length_cons] at h
      rw [matchesFrom_cons_of_lt (by omega)]
      exact @ih (c :: before) (by rw [List.length_cons]; omega)

theorem length_matchesFrom_le_one (hp : 0 < p.ownWidth.least) {before after : List Char} {free : ℕ}
    (h : ∀ m ∈ p.matchesFrom before before.length free after,
      m.reading.cursor.index = before.length + after.length) :
    (p.matchesFrom before before.length free after).length ≤ 1 := by
  induction after generalizing before free with
  | nil =>
      rw [matchesFrom, matchesAt_eq_toList hp, matchAt?_end hp, Option.toList_none, ite_self]
      exact Nat.zero_le 1
  | cons c after ih =>
      have hmore : ∀ free, (∀ m ∈ p.matchesFrom (c :: before) (before.length + 1) free after,
          m.reading.cursor.index = before.length + (c :: after).length) →
            (p.matchesFrom (c :: before) (before.length + 1) free after).length ≤ 1 := by
        intro free hall
        refine @ih (c :: before) free fun m hm => (hall m hm).trans ?_
        rw [List.length_cons, List.length_cons]
        omega
      by_cases hlt : before.length < free
      · rw [matchesFrom_cons_of_lt hlt] at h ⊢
        exact hmore free h
      · have hfree := Nat.not_lt.1 hlt
        cases hfound : p.matchAt? ⟨before, c :: after, before.length⟩ with
        | none =>
            rw [matchesFrom_cons_of_none hfree hfound] at h ⊢
            exact hmore free h
        | some m =>
            rw [matchesFrom_cons_of_some hp hfree hfound] at h ⊢
            have hstop := h m List.mem_cons_self
            have hnone : p.matchesFrom (c :: before) (before.length + 1) m.reading.cursor.index after =
                [] :=
              @matchesFrom_eq_nil_of_le p hp (c :: before) after _
                (by rw [hstop, List.length_cons, List.length_cons]; omega)
            rw [hnone]
            exact le_rfl

/-- Matches that go on to the end of the text leave no room for a second one. -/
theorem length_allMatches_le_one (hp : 0 < p.ownWidth.least)
    (h : ∀ m ∈ p.allMatches content, m.reading.cursor.after = []) :
    (p.allMatches content).length ≤ 1 := by
  apply @length_matchesFrom_le_one p hp []
  intro m hm
  obtain ⟨hchars, hindex⟩ := (within_allMatches p content m hm).reading.cursor
  rw [h m hm, List.append_nil] at hchars
  rw [hindex, ← hchars, List.length_reverse, List.length_nil, Nat.zero_add]

end Pattern

/-- The run after a key, what separates it from its value, and the value. -/
def Reading.keyed (r : Reading) (name between value rest : List Char) : Reading :=
  let named := (r.pass name (between ++ (value ++ rest))).close 1 r.cursor
  let opened := named.pass between (value ++ rest)
  (opened.pass value rest).close 2 opened.cursor

/-- The candidate that is shown by what groups have read. -/
def Candidate.ofGroups (groups : ℕ → Option (List Char)) : Candidate where
  name := String.ofList ((groups 1).getD [])
  initializer := (groups 2).map fun text => String.ofList (Text.trim text)

namespace Language

variable {sep p : Pattern} {k line : CharClass} {S : Set (List Char)} {r r' : Reading}
  {content name between value rest : List Char}

theorem group?_keyed {c : Cursor} (hafter : c.after = name ++ (between ++ (value ++ rest))) :
    (⟨c, (⟨c, []⟩ : Reading).keyed name between value rest⟩ : Match).group? 1 = some name ∧
      (⟨c, (⟨c, []⟩ : Reading).keyed name between value rest⟩ : Match).group? 2 = some value := by
  constructor
  · exact congrArg some (text_pass (r := ⟨c, []⟩) hafter)
  · exact congrArg some (text_pass
      (r := ((⟨c, []⟩ : Reading).pass name (between ++ (value ++ rest))).pass between (value ++ rest))
      rfl)

/-- A key, a separator and a value are read wherever they stand. -/
theorem mem_ends_keyed_iff (hsep : ReadsAnywhere sep S) :
    r' ∈ (named (plus k) ++ sep ++ valued (plus line)).ends r ↔
      ∃ name between value rest, (name ≠ [] ∧ ∀ c ∈ name, k.admits c = true) ∧ between ∈ S ∧
        (value ≠ [] ∧ ∀ c ∈ value, line.admits c = true) ∧
        r.cursor.after = name ++ (between ++ (value ++ rest)) ∧
        r' = r.keyed name between value rest := by
  constructor
  · intro hmem
    obtain ⟨_, hopened, hvalued⟩ := List.mem_flatMap.1 hmem
    obtain ⟨_, hkey, hbetween⟩ := List.mem_flatMap.1 hopened
    obtain ⟨_, hplus, rfl⟩ := List.mem_map.1 hkey
    obtain ⟨_, hlast, rfl⟩ := List.mem_map.1 hvalued
    obtain ⟨-, name, hname, rest, hafter, rfl⟩ := (reads_plus k r _).1 hplus
    obtain ⟨-, between, hmark, rest', hafter', rfl⟩ := (hsep _ _).1 hbetween
    obtain ⟨-, value, hvalue, rest'', hafter'', rfl⟩ := (reads_plus line _ _).1 hlast
    have hrest : rest = between ++ rest' := hafter'
    have hrest' : rest' = value ++ rest'' := hafter''
    subst hrest hrest'
    exact ⟨name, between, value, rest'', hname, hmark, hvalue, hafter, rfl⟩
  · rintro ⟨name, between, value, rest, hname, hbetween, hvalue, hafter, rfl⟩
    let key := (r.pass name (between ++ (value ++ rest))).close 1 r.cursor
    let opened := key.pass between (value ++ rest)
    have hkey : key ∈ (named (plus k)).ends r :=
      List.mem_map_of_mem ((reads_plus k r _).2 ⟨trivial, name, hname, _, hafter, rfl⟩)
    have hopened : opened ∈ sep.ends key :=
      (hsep key opened).2 ⟨trivial, between, hbetween, value ++ rest, rfl, rfl⟩
    have hlast : (opened.pass value rest).close 2 opened.cursor ∈ (valued (plus line)).ends opened :=
      List.mem_map_of_mem ((reads_plus line opened _).2 ⟨trivial, value, hvalue, rest, rfl, rfl⟩)
    exact List.mem_flatMap.2 ⟨opened, List.mem_flatMap.2 ⟨key, hkey, hopened⟩, hlast⟩

/-! ## Keys -/

/-- How a format writes a key: the letters of keys, and the mark between a key and its value. -/
structure KeyStyle where
  letters : CharClass
  mark : Char

/-- The pattern reads a key in that style with a value, which is the rest of the line. -/
structure ReadsKeys (style : KeyStyle) (p : Pattern) : Prop where
  moves : 0 < p.ownWidth.least
  fenced : p.fencedBy ['\n'] = true
  mark : style.letters.admits style.mark = false ∧ Text.isBlank style.mark = false
  ends : ∀ r, ∀ r' ∈ p.ends r, ∃ name gap value rest,
    (name ≠ [] ∧ ∀ c ∈ name, style.letters.admits c = true) ∧ value ≠ [] ∧
      r.cursor.after = name ++ (style.mark :: gap ++ (value ++ rest)) ∧
      r' = r.keyed name (style.mark :: gap) value rest
  reads : ∀ r name value, (name ≠ [] ∧ ∀ c ∈ name, style.letters.admits c = true) →
    (value ≠ [] ∧ '\n' ∉ value) → r.cursor.after = name ++ style.mark :: value → p.ends r ≠ []
  endsLine : ∀ r r', First p r r' → ∀ c ∈ r'.cursor.after.head?, c = '\n'

/-- Keys of the shell. -/
def assignmentStyle : KeyStyle := ⟨upperChar, '='⟩

/-- Keys of mappings. -/
def mappingStyle : KeyStyle := ⟨upperChar.anyCase, ':'⟩

theorem readsKeys_shellAssignment : ReadsKeys assignmentStyle shellAssignment where
  moves := by decide
  fenced := by decide
  mark := by decide
  ends r r' hmem := by
    obtain ⟨name, _, value, rest, hname, rfl, hvalue, hafter, rfl⟩ :=
      (mem_ends_keyed_iff (reads_text "=")).1 hmem
    exact ⟨name, [], value, rest, hname, hvalue.1, hafter, rfl⟩
  reads r name value hname hvalue hafter := by
    have hline : ∀ c ∈ value, CharClass.notNewline.admits c = true := by
      intro c hc
      rw [CharClass.notNewline, CharClass.admits_complement, CharClass.admits_ofChar]
      simpa using ne_of_mem_of_not_mem hc hvalue.2
    refine List.ne_nil_of_mem ((mem_ends_keyed_iff (reads_text "=")).2
      ⟨name, _, value, [], hname, rfl, ⟨hvalue.1, hline⟩, ?_, rfl⟩)
    rw [List.append_nil]
    exact hafter
  endsLine r r' h c hc := by
    have hline : EndsLine .notNewline shellAssignment := .seq (.group (endsLine_plus .notNewline) 2)
    have hstop := hline r r' h c hc
    simpa [CharClass.notNewline, CharClass.admits_complement, CharClass.admits_ofChar] using hstop

theorem reads_colon : ReadsAnywhere (text ":").ignoringCase {[':']} := by
  have hreads := (reads_one (CharClass.anyCase (.ofChar ':'))).seq reads_empty
  have hset : Set.image2 (· ++ ·)
      {front | ∃ c, (CharClass.anyCase (.ofChar ':')).admits c = true ∧ front = [c]} {[]} =
        ({[':']} : Set (List Char)) := by
    ext front
    constructor
    · rintro ⟨_, ⟨c, hc, rfl⟩, _, rfl, rfl⟩
      have hcolon : c ∈ [':'] := CharClass.mem_of_admits_anyCase (by decide) hc
      rw [List.mem_singleton.1 hcolon]
      rfl
    · rintro rfl
      exact ⟨[':'], ⟨':', by decide, rfl⟩, [], rfl, rfl⟩
  rwa [hset] at hreads

theorem mem_ends_mappingKey_iff :
    r' ∈ mappingKey.ends r ↔ ∃ name between value rest,
      (name ≠ [] ∧ ∀ c ∈ name, upperChar.anyCase.admits c = true) ∧
        between ∈ Set.image2 (· ++ ·) {[':']} {gap | ∀ c ∈ gap, inlineBlank.anyCase.admits c = true} ∧
        (value ≠ [] ∧ ∀ c ∈ value, CharClass.notNewline.anyCase.admits c = true) ∧
        r.cursor.after = name ++ (between ++ (value ++ rest)) ∧
        r' = r.keyed name between value rest := by
  rw [← mem_ends_keyed_iff (reads_colon.seq (reads_star inlineBlank.anyCase))]
  have hends : ((named (plus upperChar.anyCase) ++ (text ":").ignoringCase) ++
      star inlineBlank.anyCase).ends r =
        (named (plus upperChar.anyCase) ++ ((text ":").ignoringCase ++ star inlineBlank.anyCase)).ends
          r := ends_seq_assoc
  exact Iff.of_eq (congrArg (fun opened => r' ∈
    opened.flatMap (valued (plus CharClass.notNewline.anyCase)).ends) hends)

theorem readsKeys_mappingKey : ReadsKeys mappingStyle mappingKey where
  moves := by decide
  fenced := by decide
  mark := by decide
  ends r r' hmem := by
    obtain ⟨name, _, value, rest, hname, ⟨_, rfl, gap, -, rfl⟩, hvalue, hafter, rfl⟩ :=
      mem_ends_mappingKey_iff.1 hmem
    exact ⟨name, gap, value, rest, hname, hvalue.1, hafter, rfl⟩
  reads r name value hname hvalue hafter := by
    have hline : ∀ c ∈ value, CharClass.notNewline.anyCase.admits c = true := by
      intro c hc
      by_contra hnot
      have hnewline := CharClass.eq_newline_of_not_admits_anyCase (Bool.eq_false_of_not_eq_true hnot)
      exact hvalue.2 (hnewline ▸ hc)
    refine List.ne_nil_of_mem (mem_ends_mappingKey_iff.2
      ⟨name, _, value, [], hname, ⟨[':'], rfl, [], by simp, rfl⟩, ⟨hvalue.1, hline⟩, ?_, rfl⟩)
    rw [List.append_nil]
    exact hafter
  endsLine r r' h c hc := by
    have hline : EndsLine CharClass.notNewline.anyCase mappingKey :=
      .seq (.group (endsLine_plus CharClass.notNewline.anyCase) 2)
    exact CharClass.eq_newline_of_not_admits_anyCase (hline r r' h c hc)

/-! ## Keys without a value -/

/-- A line in which a key stands as a whole word behind `front`, and nothing but blanks behind its
mark. -/
structure EmptyKey (style : KeyStyle) (front name gap : List Char) : Prop where
  nonempty : name ≠ []
  letters : ∀ c ∈ name, style.letters.admits c = true
  whole : ∀ c ∈ front.getLast?, style.letters.admits c = false
  noMark : style.mark ∉ front
  blank : ∀ c ∈ gap, Text.isBlank c = true
  oneLine : '\n' ∉ front ++ (name ++ style.mark :: gap)

variable {style : KeyStyle} {front gap less after : List Char}

/-- A key that is read in such a line ends where the key of the line ends. -/
theorem ReadsKeys.eq_of_emptyKey (h : ReadsKeys style p) (hkey : EmptyKey style front name gap)
    (skipped : Cursor) (hplace : skipped.before.reverse ++ skipped.after =
      front ++ (name ++ style.mark :: gap)) (hmem : r' ∈ p.ends ⟨skipped, []⟩) :
    ∃ read inside value rest, read ≠ [] ∧ (∀ c ∈ read, style.letters.admits c = true) ∧ value ≠ [] ∧
      skipped.before.reverse ++ read = front ++ name ∧ gap = inside ++ (value ++ rest) ∧
        skipped.after = read ++ (style.mark :: inside ++ (value ++ rest)) ∧
        r' = (⟨skipped, []⟩ : Reading).keyed read (style.mark :: inside) value rest := by
  obtain ⟨read, inside, value, rest, hread, hvalue, hafter, rfl⟩ := h.ends _ _ hmem
  have hafter : skipped.after = read ++ (style.mark :: inside ++ (value ++ rest)) := hafter
  have hname : style.mark ∉ name := by
    intro hmem
    have hletter := hkey.letters _ hmem
    rw [h.mark.1] at hletter
    cases hletter
  have hgap : style.mark ∉ gap := by
    intro hmem
    have hblank := hkey.blank _ hmem
    rw [h.mark.2] at hblank
    cases hblank
  have hsplit : (front ++ name) ++ style.mark :: gap =
      (skipped.before.reverse ++ read) ++ style.mark :: (inside ++ (value ++ rest)) := by
    rw [List.append_assoc, ← hplace, hafter, List.append_assoc]
    rfl
  obtain ⟨hfront, -, hrest⟩ := (List.append_cons_inj_of_notMem
    (by simp [hkey.noMark, hname]) hgap).1 hsplit
  exact ⟨read, inside, value, rest, hread.1, hread.2, hvalue, hfront.symm, hrest, hafter, rfl⟩

theorem ReadsKeys.length_allMatches_le_one (h : ReadsKeys style p) (hline : '\n' ∉ content) :
    (p.allMatches content).length ≤ 1 := by
  apply Pattern.length_allMatches_le_one h.moves
  intro m hm
  have hstop := h.endsLine _ _ (first_of_mem_allMatches h.moves hm)
  have hchars := (within_allMatches p content m hm).reading.cursor.chars
  cases hafter : m.reading.cursor.after with
  | nil => rfl
  | cons c after =>
      rw [hafter] at hstop hchars
      have hmem : c ∈ content := by
        rw [← hchars]
        simp
      exact absurd (hstop c rfl ▸ hmem) hline

/-- No key is read from a place in front of the key of the line. -/
theorem ReadsKeys.matchAt?_front (h : ReadsKeys style p) (hkey : EmptyKey style front name gap)
    {more : List Char} (hfront : front = less ++ more) (hmore : more ≠ []) (index : ℕ) :
    p.matchAt? ⟨less.reverse ++ [], more ++ (name ++ style.mark :: gap), index⟩ = none := by
  rw [matchAt?_eq, Option.map_eq_none_iff, List.head?_eq_none_iff, List.eq_nil_iff_forall_not_mem]
  intro r' hmem
  obtain ⟨read, _, _, _, -, hletters, -, hread, -⟩ :=
    h.eq_of_emptyKey hkey _ (by simp [hfront]) hmem
  rw [hfront, List.append_nil, List.reverse_reverse, List.append_assoc] at hread
  obtain ⟨inner, last, rfl⟩ := (List.eq_nil_or_concat' more).resolve_left hmore
  have hlast : style.letters.admits last = true :=
    hletters last (by rw [List.append_cancel_left hread]; simp)
  rw [hkey.whole last (by simp [hfront])] at hlast
  cases hlast

/-- A key without a value is no candidate, and one with a blank value is one without a value. -/
theorem ReadsKeys.candidates_emptyKey (h : ReadsKeys style p)
    (hkey : EmptyKey style front name gap) :
    (p.allMatches (front ++ (name ++ style.mark :: gap))).map Candidate.ofMatch =
      if gap = [] then [] else [⟨String.ofList name, some ""⟩] := by
  by_cases hgap : gap = []
  · -- Wherever a key could be read, there is nothing behind its mark.
    have hnone : p.allMatches (front ++ (name ++ style.mark :: gap)) = [] := by
      refine matchesFrom_eq_nil fun less more heq => List.eq_nil_iff_forall_not_mem.2 fun r' hmem => ?_
      obtain ⟨_, _, value, _, -, -, hvalue, -, hrest, -⟩ :=
        h.eq_of_emptyKey hkey _ (by simpa using heq.symm) hmem
      rw [hgap] at hrest
      simp only [List.nil_eq, List.append_eq_nil_iff] at hrest
      exact hvalue hrest.2.1
    rw [hnone, if_pos hgap]
    rfl
  · have hline : '\n' ∉ gap := fun hmem => hkey.oneLine (by simp [hmem])
    let place : Cursor := ⟨front.reverse ++ [], name ++ style.mark :: gap, 0 + front.length⟩
    obtain ⟨r', more, hends⟩ := List.exists_cons_of_ne_nil
      (h.reads ⟨place, []⟩ name gap ⟨hkey.nonempty, hkey.letters⟩ ⟨hgap, hline⟩ rfl)
    have hfirst : First p ⟨place, []⟩ r' := by rw [First, hends, List.head?_cons]
    have hmem : (⟨place, r'⟩ : Match) ∈ p.allMatches (front ++ (name ++ style.mark :: gap)) := by
      refine mem_matchesFrom hfirst.matchAt? (Nat.zero_le _) fun less more heq hmore earlier hfound => ?_
      have hnone := h.matchAt?_front hkey heq hmore (0 + less.length)
      rw [hnone] at hfound
      cases hfound
    have hcandidate : Candidate.ofMatch ⟨place, r'⟩ = ⟨String.ofList name, some ""⟩ := by
      obtain ⟨read, inside, value, rest, -, -, -, hread, hrest, hafter, rfl⟩ :=
        h.eq_of_emptyKey hkey place (by simp [place]) hfirst.mem
      have hread : front ++ read = front ++ name := by simpa [place] using hread
      obtain ⟨hkeyRead, hvalueRead⟩ := group?_keyed hafter
      have hblank : ∀ c ∈ value, Text.isBlank c = true := fun c hc =>
        hkey.blank c (by rw [hrest]; simp [hc])
      rw [Candidate.ofMatch, hkeyRead, hvalueRead, Option.getD_some, Option.map_some,
        Text.trim_eq_nil hblank, List.append_cancel_left hread]
    have honly : p.allMatches (front ++ (name ++ style.mark :: gap)) = [⟨place, r'⟩] := by
      have hlength := h.length_allMatches_le_one hkey.oneLine
      obtain ⟨first, rest, hall⟩ := List.exists_cons_of_ne_nil (List.ne_nil_of_mem hmem)
      rw [hall] at hlength hmem ⊢
      obtain rfl : rest = [] := List.length_eq_zero_iff.1 (by simpa using hlength)
      rw [List.mem_singleton.1 hmem]
    rw [honly, if_neg hgap, List.map_singleton, hcandidate]

/-! ## The candidates of a text -/

/-- The candidates of a text, one pattern after the other. -/
def allCandidates (language : Language) (text : List Char) : List Candidate :=
  (language.candidatesIn text).flatten

theorem allCandidates_eq {language : Language} (h : language.candidates = [p]) (text : List Char) :
    language.allCandidates text = (p.allMatches text).map Candidate.ofMatch := by
  rw [allCandidates, candidatesIn, h, List.map_singleton, List.flatten_singleton]

/-- A fenced pattern shows the candidates of a text line by line. -/
theorem allCandidates_splitOn {language : Language} (h : language.candidates = [p])
    (hreads : ReadsKeys style p) (text : List Char) :
    language.allCandidates text = (Text.splitOn '\n' text).flatMap language.allCandidates := by
  have hgroups : ∀ text, language.allCandidates text =
      ((p.allMatches text).map Match.group?).map Candidate.ofGroups := by
    intro text
    rw [allCandidates_eq h, List.map_map]
    rfl
  rw [hgroups, group?_allMatches_splitOn hreads.moves hreads.fenced, List.map_flatMap]
  exact List.flatMap_congr fun line _ => (hgroups line).symm

/-- The formats with one key to a line, and how they write it. -/
def keyStyles : List (String × KeyStyle) :=
  ("env", assignmentStyle) :: mappingKeys.map (·, mappingStyle)

theorem exists_readsKeys {entry : String × KeyStyle} (h : entry ∈ keyStyles) :
    ∃ language p, find? entry.1 = some language ∧ language.candidates = [p] ∧
      ReadsKeys entry.2 p := by
  rcases List.mem_cons.1 h with rfl | h
  · exact ⟨_, _, rfl, rfl, readsKeys_shellAssignment⟩
  · obtain ⟨key, hkey, rfl⟩ := List.mem_map.1 h
    obtain ⟨language, hfind, hrules⟩ := find?_mappingKeys hkey
    exact ⟨language, mappingKey, hfind, hrules.candidates, readsKeys_mappingKey⟩

/-- The candidates of a text are those of its lines, one line after the other, and no line has more than
one.  A key without a value takes none from the next line, and what follows keeps its candidates. -/
theorem candidates_of_lines :
    ∀ entry ∈ keyStyles, ∃ language, find? entry.1 = some language ∧
      (∀ text, language.allCandidates text =
        (Text.splitOn '\n' text).flatMap language.allCandidates) ∧
      (∀ text, ∀ line ∈ Text.splitOn '\n' text, (language.allCandidates line).length ≤ 1) ∧
      ∀ front name gap rest, EmptyKey entry.2 front name gap →
        language.allCandidates (front ++ (name ++ entry.2.mark :: gap) ++ '\n' :: rest) =
          (if gap = [] then [] else [⟨String.ofList name, some ""⟩]) ++
            language.allCandidates rest := by
  intro entry hentry
  obtain ⟨language, p, hfind, hcandidates, hreads⟩ := exists_readsKeys hentry
  refine ⟨language, hfind, allCandidates_splitOn hcandidates hreads, ?_, ?_⟩
  · intro text line hline
    have hnewline : '\n' ∉ line := fun hmem => (Text.mem_of_mem_splitOn hline hmem).1 rfl
    rw [allCandidates_eq hcandidates, List.length_map]
    exact hreads.length_allMatches_le_one hnewline
  · intro front name gap rest hkey
    have hline : language.allCandidates (front ++ (name ++ entry.2.mark :: gap)) =
        if gap = [] then [] else [⟨String.ofList name, some ""⟩] := by
      rw [allCandidates_eq hcandidates, hreads.candidates_emptyKey hkey]
    rw [allCandidates_splitOn hcandidates hreads, Text.splitOn_append_cons,
      Text.splitOn_of_notMem hkey.oneLine, List.flatMap_append, List.flatMap_singleton, hline,
      ← allCandidates_splitOn hcandidates hreads]

theorem candidates_below_databaseHost :
    ("yml", mappingStyle) ∈ keyStyles ∧ EmptyKey mappingStyle [] "DB_HOST".toList [] ∧
      ∃ language, find? "yml" = some language ∧
        language.allCandidates "DB_HOST:\nAPI_KEY: abc\n".toList = [⟨"API_KEY", some "abc"⟩] := by
  have hentry : ("yml", mappingStyle) ∈ keyStyles := List.mem_cons_of_mem _ (List.mem_cons_self)
  have hkey : EmptyKey mappingStyle [] "DB_HOST".toList [] :=
    ⟨by decide, by decide, by simp, by simp, by simp, by decide⟩
  obtain ⟨language, hfind, -, -, hempty⟩ := candidates_of_lines ("yml", mappingStyle) hentry
  refine ⟨hentry, hkey, language, hfind, ?_⟩
  have hlanguage : language = mapping := (Option.some.inj hfind).symm
  have hbelow : mapping.allCandidates "API_KEY: abc\n".toList = [⟨"API_KEY", some "abc"⟩] := by
    decide +kernel
  have hrest := hempty [] "DB_HOST".toList [] "API_KEY: abc\n".toList hkey
  rw [hlanguage] at hrest ⊢
  exact hrest.trans hbelow

end Language

end EnvAudit
