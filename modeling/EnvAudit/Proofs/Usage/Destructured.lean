import EnvAudit.Proofs.Language.Members
import EnvAudit.Proofs.Usage.Quiet

/-!
# Variables taken out of the process environment

A declaration takes variables out of the process environment by a list of keys, each with a new name or
a default value if there is need for one.  However it is laid out, the declaration reads the keys of
capitals in their order, and it reads nothing else.
-/

namespace EnvAudit

open Pattern

namespace Usage

/-- A new name or a default value. -/
structure Clause where
  before : Language.Gap := {}
  text : List Char
  after : Language.Gap := {}
  noComma : ',' ∉ text := by decide
  noBrace : '}' ∉ text := by decide
  quiet : Quiet text := by decide

namespace Clause

def chars (clause : Clause) : List Char :=
  clause.before.chars ++ (clause.text ++ clause.after.chars)

/-- A clause and the mark in front of it, or nothing. -/
def marked (mark : Char) : Option Clause → List Char
  | none => []
  | some clause => mark :: clause.chars

end Clause

/-- A key of letters, digits and underscores, the new name of its value and the value that it has by
default. -/
structure Binding where
  before : Language.Gap := {}
  key : List Char
  nonempty : key ≠ [] := by decide
  isKey : ∀ c ∈ key, Text.isAsciiWord c = true := by decide
  after : Language.Gap := {}
  newName? : Option Clause := none
  default? : Option Clause := none

namespace Binding

/-- The key as it is laid out. -/
def taken (binding : Binding) : List Char :=
  binding.before.chars ++ (binding.key ++ binding.after.chars)

def text (binding : Binding) : List Char :=
  binding.taken ++ (Clause.marked ':' binding.newName? ++ Clause.marked '=' binding.default?)

end Binding

/-- A declaration that takes variables out of the process environment. -/
structure Destructuring where
  atStart : Language.Gap := {}
  keyword : String
  isKeyword : keyword ∈ ["const", "let", "var"] := by decide
  afterKeyword : Language.Gap := {}
  first : Binding
  more : List Binding := []
  afterList : Language.Gap := {}
  afterEquals : Language.Gap := {}
  ending : List Char := []
  isEnding : ∀ c ∈ ending, Text.isBlank c = true ∨ c = ';' := by decide

/-- The bindings, one behind the other, with commas between them. -/
def listText (bindings : List Binding) : List Char := [','].intercalate (bindings.map Binding.text)

namespace Destructuring

def bindings (d : Destructuring) : List Binding := d.first :: d.more

/-- What stands behind the list. -/
def source (d : Destructuring) : List Char :=
  d.afterList.chars ++ '=' :: (d.afterEquals.chars ++ "process.env".toList)

/-- The declaration without the blanks in front and what ends it. -/
def body (d : Destructuring) : List Char :=
  d.keyword.toList ++ (d.afterKeyword.chars ++ '{' :: (listText d.bindings ++ '}' :: d.source))

def text (d : Destructuring) : List Char := d.atStart.chars ++ (d.body ++ d.ending)

end Destructuring

example :
    Destructuring.text {
      keyword := "const"
      afterKeyword := { chars := [' '] }
      first := { key := "API_URL".toList }
      more := [
        { key := "DB_PASS".toList, newName? := some { text := "password".toList } },
        { before := { chars := ['\n'] }, key := "PORT".toList
          default? := some { text := "3000".toList, after := { chars := ['\n'] } } }]
      afterList := { chars := [' '] }
      ending := [';'] } =
      "const \x7bAPI_URL,DB_PASS:password,\nPORT=3000\n\x7d =process.env;".toList := by
  decide

variable {c : Char} {text : List Char} {r : Reading}

/-! ## No single read -/

theorem quiet_of_inert (h : ∀ c ∈ text, Text.isBlank c = true ∨ Text.isAsciiWord c = true) :
    Quiet text := by
  have hopenings : ∀ mark ∈ openings, Text.isBlank mark = false ∧ Text.isAsciiWord mark = false := by
    decide
  refine quiet_of_plain fun mark hmark hmem => ?_
  obtain ⟨hblank, hword⟩ := hopenings mark hmark
  rcases h mark hmem with hmem | hmem
  · simp [hblank] at hmem
  · simp [hword] at hmem

theorem Clause.quiet_chars (clause : Clause) : Quiet clause.chars :=
  clause.quiet.padded clause.before.isBlank fun c hc => .inl (clause.after.isBlank c hc)

theorem Quiet.append_marked (h : Quiet text) {mark : Char} (hmark : mark ∈ separators)
    (clause? : Option Clause) : Quiet (text ++ Clause.marked mark clause?) := by
  cases clause? with
  | none => rwa [Clause.marked, List.append_nil]
  | some clause => exact h.append_cons clause.quiet_chars hmark

theorem Binding.inert_taken (binding : Binding) :
    ∀ c ∈ binding.taken, Text.isBlank c = true ∨ Text.isAsciiWord c = true := by
  simp only [Binding.taken, List.mem_append]
  rintro c (hc | hc | hc)
  · exact .inl (binding.before.isBlank c hc)
  · exact .inr (binding.isKey c hc)
  · exact .inl (binding.after.isBlank c hc)

theorem Binding.quiet_text (binding : Binding) : Quiet binding.text := by
  rw [Binding.text, ← List.append_assoc]
  exact ((quiet_of_inert binding.inert_taken).append_marked (by decide) _).append_marked (by decide) _

theorem quiet_listText (bindings : List Binding) : Quiet (listText bindings) := by
  rw [listText]
  induction bindings with
  | nil => exact quiet_of_inert nofun
  | cons binding more ih =>
      cases more with
      | nil => simpa [List.intercalate_singleton] using binding.quiet_text
      | cons next more =>
          rw [List.map_cons, List.map_cons, List.intercalate_cons_cons, List.append_assoc]
          exact binding.quiet_text.append_cons ih (by decide)

theorem Destructuring.quiet_text (d : Destructuring) : Quiet d.text := by
  have hsource : Quiet (d.afterEquals.chars ++ ("process.env".toList ++ d.ending)) := by
    have henv : Quiet "process.env".toList := by
      rw [Quiet]
      decide +kernel
    exact henv.padded d.afterEquals.isBlank d.isEnding
  have hequals : Quiet d.afterList.chars := quiet_of_inert fun c hc => .inl (d.afterList.isBlank c hc)
  have hlead : ∀ c ∈ d.atStart.chars ++ (d.keyword.toList ++ d.afterKeyword.chars),
      Text.isBlank c = true ∨ Text.isAsciiWord c = true := by
    have hkeywords : ∀ keyword ∈ ["const", "let", "var"], ∀ c ∈ keyword.toList,
        Text.isAsciiWord c = true := by decide
    simp only [List.mem_append]
    rintro c (hc | hc | hc)
    · exact .inl (d.atStart.isBlank c hc)
    · exact .inr (hkeywords d.keyword d.isKeyword c hc)
    · exact .inl (d.afterKeyword.isBlank c hc)
  have htext : d.text = (d.atStart.chars ++ (d.keyword.toList ++ d.afterKeyword.chars)) ++ '{' ::
      (listText d.bindings ++ '}' :: (d.afterList.chars ++ '=' ::
        (d.afterEquals.chars ++ ("process.env".toList ++ d.ending)))) := by
    simp [Destructuring.text, Destructuring.body, Destructuring.source]
  rw [htext]
  refine (quiet_of_inert hlead).append_brace ?_ fun hmem => absurd (hlead '$' hmem) (by decide)
  exact (quiet_listText _).append_cons (hequals.append_cons hsource (by decide)) (by decide)

/-! ## The list -/

theorem Clause.ne_of_mem_chars {clause : Clause} (h : c ∈ clause.chars) : c ≠ ',' ∧ c ≠ '}' := by
  simp only [Clause.chars, List.mem_append] at h
  have hgap : Text.isBlank c = true → c ∉ [',', '}'] := Language.not_mem_of_isBlank (by decide)
  rcases h with hc | hc | hc
  · simpa using hgap (clause.before.isBlank c hc)
  · exact ⟨ne_of_mem_of_not_mem hc clause.noComma, ne_of_mem_of_not_mem hc clause.noBrace⟩
  · simpa using hgap (clause.after.isBlank c hc)

theorem Clause.ne_of_mem_marked {mark : Char} (hmark : mark ∈ [':', '=']) {clause? : Option Clause}
    (h : c ∈ marked mark clause?) : c ≠ ',' ∧ c ≠ '}' := by
  cases clause? with
  | none => cases h
  | some clause =>
      rcases List.mem_cons.1 h with rfl | hc
      · exact (by decide : ∀ mark ∈ [':', '='], mark ≠ ',' ∧ mark ≠ '}') c hmark
      · exact ne_of_mem_chars hc

/-- No mark stands in a key as it is laid out. -/
theorem Binding.notMem_taken (binding : Binding) {mark : Char} (hmark : mark ∈ separators) :
    mark ∉ binding.taken := by
  have hmarks : ∀ mark ∈ separators, Text.isBlank mark = false ∧ Text.isAsciiWord mark = false := by
    decide
  obtain ⟨hblank, hword⟩ := hmarks mark hmark
  exact fun hmem => (binding.inert_taken mark hmem).elim (by simp [hblank]) (by simp [hword])

theorem Binding.ne_of_mem_text {binding : Binding} (h : c ∈ binding.text) : c ≠ ',' ∧ c ≠ '}' := by
  simp only [Binding.text, List.mem_append] at h
  rcases h with hc | hc | hc
  · exact ⟨ne_of_mem_of_not_mem hc (binding.notMem_taken (by decide)),
      ne_of_mem_of_not_mem hc (binding.notMem_taken (by decide))⟩
  · exact Clause.ne_of_mem_marked (by decide) hc
  · exact Clause.ne_of_mem_marked (by decide) hc

/-- The key is what stands in front of the first colon and of the first equals sign. -/
theorem Binding.upTo_upTo_text (binding : Binding) :
    Text.upTo '=' (Text.upTo ':' binding.text) = binding.taken := by
  rw [Binding.text, Text.upTo_append (binding.notMem_taken (by decide)),
    Text.upTo_append (binding.notMem_taken (by decide))]
  cases binding.newName? with
  | some clause =>
      rw [Clause.marked, List.cons_append, Text.upTo_cons_self]
      exact List.append_nil _
  | none =>
      cases binding.default? with
      | none => exact List.append_nil _
      | some clause =>
          rw [Clause.marked, Clause.marked, List.nil_append, Text.upTo_cons_of_ne (by decide),
            Text.upTo_cons_self, List.append_nil]

theorem Binding.boundName_text (binding : Binding) : boundName binding.text = binding.key := by
  have hvisible : ∀ c ∈ binding.key, Text.isBlank c = false := by
    intro c hc
    refine eq_false_of_ne_true fun hblank => ?_
    have hword := Text.isAsciiWord_eq_false (Text.isWord_of_isBlank hblank)
    rw [binding.isKey c hc] at hword
    cases hword
  rw [boundName, binding.upTo_upTo_text]
  exact Text.trim_padded binding.before.isBlank binding.nonempty hvisible binding.after.isBlank

/-- A list binds its keys of capitals. -/
theorem boundNames_listText {bindings : List Binding} (hne : bindings ≠ []) :
    boundNames (listText bindings) = (bindings.map Binding.key).filter isAllCaps := by
  have hcomma : ∀ piece ∈ bindings.map Binding.text, ',' ∉ piece := by
    intro piece hpiece hmem
    obtain ⟨binding, -, rfl⟩ := List.mem_map.1 hpiece
    exact (Binding.ne_of_mem_text hmem).1 rfl
  rw [boundNames, listText, Text.splitOn_intercalate (by simpa using hne) hcomma, List.map_map]
  congr 1
  exact List.map_congr_left fun binding _ => binding.boundName_text

theorem brace_notMem_listText (bindings : List Binding) : '}' ∉ listText bindings := by
  intro hmem
  rcases Text.mem_intercalate hmem with heq | ⟨piece, hpiece, hc⟩
  · exact absurd heq (by decide)
  · obtain ⟨binding, -, rfl⟩ := List.mem_map.1 hpiece
    exact (Binding.ne_of_mem_text hc).2 rfl

theorem Binding.text_ne_nil (binding : Binding) : binding.text ≠ [] := by
  simp [Binding.text, Binding.taken, binding.nonempty]

theorem listText_ne_nil (first : Binding) (more : List Binding) : listText (first :: more) ≠ [] := by
  rw [listText]
  cases more with
  | nil => simpa [List.intercalate_singleton] using first.text_ne_nil
  | cons next more => simp [List.intercalate_cons_cons]

/-! ## The match -/

theorem ends_destructuring_eq_nil (h : ∀ c ∈ r.cursor.after.head?, Text.isBlank c = true ∨ c = ';') :
    destructuring.ends r = [] := by
  have hkeyword : (anyText ["const", "let", "var"]).ends r = [] := by
    refine FileScan.ends_keyword_eq_nil fun c hc => ?_
    rcases h c hc with hblank | rfl
    · exact Language.not_mem_of_isBlank (by decide) hblank
    · decide
  exact ends_seq_eq_nil (ends_seq_eq_nil (ends_seq_eq_nil (ends_seq_eq_nil (ends_seq_eq_nil
    (ends_seq_eq_nil (ends_seq_eq_nil hkeyword))))))

namespace Destructuring

variable (d : Destructuring)

theorem first_keyword {rest : List Char} (hafter : r.cursor.after = d.keyword.toList ++ rest) :
    First (anyText ["const", "let", "var"]) r (r.pass d.keyword.toList rest) := by
  have hkeywords : ∀ keyword ∈ ["const", "let", "var"], keyword.toList ∈ Form.listing.leads := by
    decide
  have hapart : ∀ one ∈ Form.listing.leads, ∀ other ∈ Form.listing.leads,
      one <+: other → one = other := by decide
  have hlead := hkeywords d.keyword d.isKeyword
  refine Form.reads_keyword.first trivial hlead hafter fun other hother hbegins => ?_
  rw [hafter] at hbegins
  rcases List.prefix_or_prefix_of_prefix hbegins (List.prefix_append d.keyword.toList rest)
    with hprefix | hprefix
  · exact hapart other hother _ hlead hprefix
  · exact (hapart _ hlead other hother hprefix).symm

theorem isAt_wordEdge_ending (r : Reading) :
    (r.pass "process.env".toList d.ending).cursor.isAt (.wordEdge false false) = true := by
  have hending : d.ending.head?.any Text.isWord = false := by
    cases hhead : d.ending.head? with
    | none => rfl
    | some c =>
        rcases d.isEnding c (List.mem_of_head? hhead) with hblank | rfl
        · exact Text.isWord_of_isBlank hblank
        · decide
  rw [Form.isAt_wordEdge_iff]
  simp [Reading.pass, hending]
  decide

/-- The pattern of declarations reads the whole declaration, and captures its list. -/
theorem first_destructuring (hafter : r.cursor.after = d.body ++ d.ending) :
    ∃ r', First destructuring r r' ∧ r'.cursor = (r.pass d.body d.ending).cursor ∧
      Match.group? ⟨r.cursor, r'⟩ 1 = some (listText d.bindings) := by
  let atEnv := "process.env".toList ++ d.ending
  let atEquals := d.afterList.chars ++ '=' :: (d.afterEquals.chars ++ atEnv)
  let atList := listText d.bindings ++ '}' :: atEquals
  let begun := r.pass d.keyword.toList (d.afterKeyword.chars ++ '{' :: atList)
  let atBrace := begun.pass d.afterKeyword.chars ('{' :: atList)
  let inside := atBrace.pass ['{'] atList
  let listed := (inside.pass (listText d.bindings) ('}' :: atEquals)).close 1 inside.cursor
  let closed := listed.pass ['}'] atEquals
  let assigned := closed.pass (d.afterList.chars ++ '=' :: d.afterEquals.chars) atEnv
  let done := assigned.pass "process.env".toList d.ending
  have hkeyword : First (anyText ["const", "let", "var"]) r begun :=
    d.first_keyword (hafter.trans (by simp [body, source, atList, atEquals, atEnv]))
  have hblanks : First blanks begun atBrace :=
    FileScan.first_blanks rfl d.afterKeyword.isBlank (by rintro _ ⟨⟩; decide)
  have hbrace : First (Pattern.text "\x7b") atBrace inside := first_text rfl
  have hlist : First (group 1 (plus (CharClass.ofChar '}').complement)) inside listed := by
    refine (first_plus rfl (listText_ne_nil d.first d.more) (fun c hc => ?_) ?_).group
    · have hne : c ≠ '}' := ne_of_mem_of_not_mem hc (brace_notMem_listText d.bindings)
      rw [CharClass.admits_complement, CharClass.admits_ofChar]
      simpa using hne
    · rintro _ ⟨⟩
      decide
  have hclose : First (Pattern.text "\x7d") listed closed := first_text rfl
  have hequals : First Language.equals closed assigned :=
    FileScan.first_equals rfl d.afterList.isBlank d.afterEquals.isBlank (by rintro _ ⟨⟩; decide)
  have henv : First (Pattern.text "process.env") assigned done := first_text rfl
  have hedge : First wordEdge done done := by
    rw [First, wordEdge, ends, if_pos (d.isAt_wordEdge_ending assigned)]
    rfl
  refine ⟨done, ((((((hkeyword.seq hblanks).seq hbrace).seq hlist).seq hclose).seq hequals).seq
    henv).seq hedge, ?_, congrArg some (text_pass rfl)⟩
  simp [done, assigned, closed, listed, inside, atBrace, begun, Reading.pass, Reading.close, body, source]
  omega

/-- The declaration is matched once, as a whole. -/
theorem allMatches_text : ∃ m, destructuring.allMatches d.text = [m] ∧
    m.group? 1 = some (listText d.bindings) := by
  obtain ⟨r', hfirst, hcursor, hgroup⟩ := d.first_destructuring (r := ⟨⟨d.atStart.chars.reverse ++ [],
    d.body ++ d.ending, 0 + d.atStart.chars.length⟩, []⟩) rfl
  refine ⟨_, ?_, hgroup⟩
  have hbody : d.body ≠ [] := by simp [body]
  have hending : ∀ before index free, destructuring.matchesFrom before index free d.ending = [] :=
    fun _ _ _ => matchesFrom_eq_nil fun front more heq => ends_destructuring_eq_nil fun c hc =>
      d.isEnding c (heq ▸ List.mem_append_right front (List.mem_of_head? hc))
  rw [allMatches, text, matchesFrom_skip le_rfl, matchesFrom_of_first (Nat.zero_le _) hbody hfirst hcursor,
    hending]
  exact fun c hc r hr => ends_destructuring_eq_nil fun c' hc' =>
    .inl (d.atStart.isBlank c' (Option.some.inj (hr.symm.trans hc') ▸ hc))

end Destructuring

/-- A declaration that takes variables out of the process environment reads its keys of capitals in
their order, and neither a new name nor a default value. -/
theorem namesIn_destructuring (d : Destructuring) :
    namesIn d.text = ((d.bindings.map Binding.key).filter isAllCaps).map String.ofList := by
  have hsingle : (patterns.flatMap fun p => (p.allMatches d.text).map fun m => (m.group? 1).getD []) =
      [] := by
    refine List.flatMap_eq_nil_iff.2 fun p hp => List.map_eq_nil_iff.2 ?_
    exact (allMatches_eq_nil_iff (least_pos_of_mem p hp) d.text).2 (d.quiet_text p hp)
  obtain ⟨m, hmatches, hgroup⟩ := d.allMatches_text
  have hlisted : (destructuring.allMatches d.text).flatMap
      (fun m => boundNames ((m.group? 1).getD [])) = (d.bindings.map Binding.key).filter isAllCaps := by
    rw [hmatches, List.flatMap_singleton, hgroup]
    exact boundNames_listText (List.cons_ne_nil _ _)
  rw [namesIn, hsingle, hlisted, List.nil_append]

example :
    namesIn "let \x7b HOME: \x7b a = b, path, _1=c:d \x7d=process.env".toList = ["HOME", "_1"] := by
  decide +kernel

end Usage

end EnvAudit
