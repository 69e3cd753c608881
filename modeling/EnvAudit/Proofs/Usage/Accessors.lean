import EnvAudit.Proofs.Usage.Form

/-!
# The forms of all environment reads

There are three kinds of forms: a name behind a dotted lead, a name in quotes, and a name behind a
dollar sign.  Every pattern of the registry is described by a form of one of these kinds.
-/

namespace EnvAudit.Usage

open Pattern

def blankTexts : Set (List Char) := {text | ∀ c ∈ text, Text.isBlank c = true}

/-- The names that consist of capitals, digits and underscores. -/
def capitals : Set (List Char) := {name | name ≠ [] ∧ ∀ c ∈ name, isCapital c = true}

namespace Form

variable {f : Form} {p : Pattern} {S E : Cursor → Prop} {L : Set (List Char)}

theorem describes_of_readsNamed (hp : ReadsNamed S p L f.names f.tails E)
    (hleads : ∀ text, text ∈ L ↔ ∃ lead ∈ f.leads, ∃ gap ∈ f.gaps, text = lead ++ gap)
    (hopens : ∀ c, S c ↔ (f.opens = true → c.isAt (.wordEdge false false) = true))
    (hstops : ∀ {c r}, First p ⟨c, []⟩ r → ∀ ch ∈ r.cursor.after.head?, f.stops ch = false)
    (hends : ∀ {c lead gap name tail rest}, f.Fits c lead gap name tail rest →
      E ((⟨c, []⟩ : Reading).named (lead ++ gap) name tail rest).cursor) : f.Describes p where
  fits {c m} hm := by
    rw [matchAt?_eq, Option.map_eq_some_iff] at hm
    obtain ⟨r, hfirst, rfl⟩ := hm
    have hstop := hstops hfirst
    obtain ⟨hplace, text, htext, name, hname, tail, htail, rest, hafter, -, rfl⟩ :=
      (hp _ r).1 (First.mem hfirst)
    obtain ⟨lead, hlead, gap, hgap, rfl⟩ := (hleads text).1 htext
    rw [Reading.cursor_named] at hstop
    refine ⟨lead, gap, name, tail, rest, ⟨hlead, hgap, hname, htail, ?_, (hopens c).1 hplace, hstop⟩,
      Reading.capture?_named _ _ _ _ _, ?_⟩
    · rw [← List.append_assoc]
      exact hafter
    · rw [Reading.cursor_named, List.append_assoc]
      rfl
  matchAt? {c lead gap name tail rest} h := by
    have hmem : (⟨c, []⟩ : Reading).named (lead ++ gap) name tail rest ∈ p.ends ⟨c, []⟩ := by
      refine (hp _ _).2 ⟨(hopens c).2 h.opens, _, (hleads _).2 ⟨lead, h.mem_leads, gap, h.mem_gaps, rfl⟩,
        name, h.mem_names, tail, h.mem_tails, rest, ?_, hends h, rfl⟩
      rw [List.append_assoc]
      exact h.after
    obtain ⟨first, more, hfirst⟩ := List.exists_cons_of_ne_nil (List.ne_nil_of_mem hmem)
    exact ⟨⟨c, first⟩, by rw [matchAt?_eq, hfirst]; rfl⟩

/-! ## Leads -/

/-- Whether no end of a lead, and no other lead, begins or continues a lead. -/
def apart (leads : List (List Char)) : Bool :=
  leads.all fun first => leads.all fun second => (List.range first.length).all fun k =>
    (k == 0 && first == second) ||
      !((first.drop k).isPrefixOf second || second.isPrefixOf (first.drop k))

theorem restart_of_apart {leads : List (List Char)} (h : apart leads = true) :
    ∀ first ∈ leads, ∀ second ∈ leads, ∀ front back, first = front ++ back → back ≠ [] →
      (front ≠ [] ∨ first ≠ second) → ¬ back <+: second ∧ ¬ second <+: back := by
  rintro first hfirst second hsecond front back rfl hback hdiffers
  simp only [apart, List.all_eq_true, List.mem_range] at h
  have hk := h _ hfirst second hsecond front.length (by
    rw [List.length_append]
    exact Nat.lt_add_of_pos_right (List.length_pos_of_ne_nil hback))
  rw [List.drop_left, Bool.or_eq_true, Bool.and_eq_true, beq_iff_eq, beq_iff_eq,
    List.length_eq_zero_iff, Bool.not_eq_true', Bool.or_eq_false_iff] at hk
  rcases hk with ⟨hfront, hsame⟩ | ⟨hnot, hnot'⟩
  · rcases hdiffers with hne | hne
    · exact absurd hfront hne
    · exact absurd hsame hne
  · simp only [← Bool.not_eq_true, List.isPrefixOf_iff_prefix] at hnot hnot'
    exact ⟨hnot, hnot'⟩

/-- A form is marked if its leads hold a mark and neither quotes nor colons, and the rest of a read holds
no colon and ends with something else than a blank or a semicolon. -/
theorem marked_of_leads (hleads : ∀ lead ∈ f.leads, ∃ mark ∈ lead, mark ∈ openings ∧
      (mark = '$' → ∀ name ∈ f.names, isAllCaps name = true))
    (hplain : ∀ lead ∈ f.leads, ∀ c ∈ lead, c ∉ Literal.quotes ∧ c ≠ ':')
    (hbody : ∀ gap ∈ f.gaps, ∀ name ∈ f.names, ∀ tail ∈ f.tails,
      gap ++ (name ++ tail) ≠ [] ∧ ':' ∉ gap ++ (name ++ tail) ∧
        ∀ c ∈ (gap ++ (name ++ tail)).getLast?, Text.isBlank c = false ∧ c ≠ ';') : f.Marked := by
  intro lead hlead gap hgap name hname tail htail
  obtain ⟨mark, hmark, hopens, hcaps⟩ := hleads lead hlead
  obtain ⟨front, more, rfl⟩ := List.append_of_mem hmark
  obtain ⟨hne, hcolon, hlast⟩ := hbody gap hgap name hname tail htail
  refine ⟨front, mark, more ++ (gap ++ (name ++ tail)), by simp, hopens, fun c hc => ?_,
    fun heq => hcaps heq name hname, fun _ hmem => ?_, fun c hc => ?_⟩
  · exact (hplain _ hlead c (List.mem_append_left _ hc)).1
  · rw [← List.cons_append, ← List.append_assoc, List.mem_append] at hmem
    exact hmem.elim (fun hmem => (hplain _ hlead ':' hmem).2 rfl) hcolon
  · rw [← List.cons_append, List.getLast?_append_of_ne_nil _ hne] at hc
    exact hlast c hc

/-! ## Names behind a dotted lead -/

/-- A name behind a lead, up to the end of the word. -/
def dotted (lead : String) : Form where
  opens := false
  leads := [lead.toList]
  gaps := {[]}
  names := capitals
  tails := {[]}
  stops := Text.isWord

theorem reads_variableName : ReadsNamedAnywhere variableName {[]} capitals {[]} :=
  ReadsAnywhere.named (reads_plus Language.upperChar)

/-- A read that ends with a word character is followed by the edge of the word exactly if no word
character follows it. -/
theorem isAt_wordEdge_named_iff {r : Reading} {lead name tail rest : List Char} {last : Char}
    (hlast : last ∈ (name ++ tail).getLast?) (hword : Text.isWord last = true) :
    (r.named lead name tail rest).cursor.isAt (.wordEdge false false) = true ↔
      ∀ c ∈ rest.head?, Text.isWord c = false := by
  obtain ⟨more, hmore⟩ := List.getLast?_eq_some_iff.1 hlast
  rw [isAt_wordEdge_iff, Reading.cursor_named, hmore]
  cases hhead : rest.head? <;> simp [Reading.pass, hword, hhead]

theorem isAt_wordEdge_capitals_iff {r : Reading} {lead name rest : List Char} (h : name ∈ capitals) :
    (r.named lead name [] rest).cursor.isAt (.wordEdge false false) = true ↔
      ∀ c ∈ rest.head?, Text.isWord c = false := by
  obtain ⟨hne, hall⟩ := h
  refine isAt_wordEdge_named_iff ?_ (isWord_of_isCapital (hall _ (List.getLast_mem hne)))
  rw [List.append_nil]
  exact List.getLast?_eq_some_getLast hne

theorem dotted_describes (lead : String) :
    (dotted lead).Describes (text lead ++ variableName ++ wordEdge) := by
  have hp := ((reads_text lead).lead reads_variableName).edge (.wordEdge false false)
  refine describes_of_readsNamed hp ?_ ?_ ?_ ?_
  · intro text
    simp [dotted]
  · simp [dotted]
  · intro c r hfirst
    obtain ⟨-, _, -, name, hname, _, rfl, rest, -, hedge, rfl⟩ := (hp _ r).1 hfirst.mem
    have hrest := (isAt_wordEdge_capitals_iff hname).1 hedge
    rw [Reading.cursor_named]
    exact hrest
  · intro c lead gap name tail rest h
    obtain rfl : tail = [] := h.mem_tails
    exact (isAt_wordEdge_capitals_iff h.mem_names).2 h.stops

theorem isCapital_eq_false {c : Char} (h : Text.isWord c = false) : isCapital c = false := by
  by_contra hcapital
  rw [Bool.not_eq_false] at hcapital
  rw [isWord_of_isCapital hcapital] at h
  cases h

theorem dotted_separate {lead : String} (hapart : apart [lead.toList] = true)
    (hsmall : ∀ c ∈ lead.toList, isCapital c = false) (hne : lead.toList ≠ []) :
    (dotted lead).Separate where
  gap gap hgap := by
    obtain rfl : gap = [] := hgap
    simp
  name _ hname := hname
  tail tail htail rest hrest c hc := by
    obtain rfl : tail = [] := htail
    exact isCapital_eq_false (hrest c hc)
  word _ h := h
  ends _ htail := .inl htail
  opens h := by cases h
  restart := restart_of_apart hapart
  last gap hgap name hname tail htail c hc other hother := by
    obtain rfl : gap = [] := hgap
    obtain rfl : tail = [] := htail
    obtain rfl := List.mem_singleton.1 hother
    rw [List.nil_append, List.append_nil] at hc
    intro hmem
    exact absurd (hname.2 c (List.mem_of_mem_getLast? hc)) (by simp [hsmall c hmem])
  mark other hother := by
    obtain rfl := List.mem_singleton.1 hother
    obtain ⟨c, more, hlead⟩ := List.exists_cons_of_ne_nil hne
    have hc : c ∈ lead.toList := hlead ▸ List.mem_cons_self
    refine ⟨c, hc, ?_⟩
    rintro _ rfl name hname _ rfl hmem
    rw [List.nil_append, List.append_nil] at hmem
    exact absurd (hname.2 c hmem) (by simp [hsmall c hc])

theorem visible_of_isCapital {c : Char} (h : isCapital c = true) :
    Text.isBlank c = false ∧ c ≠ ';' := by
  refine ⟨?_, ?_⟩
  · by_contra hblank
    rw [Bool.not_eq_false] at hblank
    exact absurd (isWord_of_isCapital h) (by simp [Text.isWord_of_isBlank hblank])
  · rintro rfl
    exact absurd h (by decide)

theorem visible_of_mem_capitals {name : List Char} (h : name ∈ capitals) :
    ∀ c ∈ name.getLast?, Text.isBlank c = false ∧ c ≠ ';' :=
  fun c hc => visible_of_isCapital (h.2 c (List.mem_of_mem_getLast? hc))

theorem colon_notMem_of_mem_capitals {name : List Char} (h : name ∈ capitals) : ':' ∉ name :=
  fun hmem => absurd (h.2 ':' hmem) (by decide)

theorem dotted_marked {lead : String} (hdot : '.' ∈ lead.toList)
    (hplain : ∀ c ∈ lead.toList, c ∉ Literal.quotes ∧ c ≠ ':') : (dotted lead).Marked := by
  refine marked_of_leads ?_ ?_ ?_
  · intro other hother
    obtain rfl := List.mem_singleton.1 hother
    exact ⟨'.', hdot, by decide, fun h => absurd h (by decide)⟩
  · intro other hother
    obtain rfl := List.mem_singleton.1 hother
    exact hplain
  · rintro _ rfl name hname _ rfl
    rw [List.nil_append, List.append_nil]
    exact ⟨hname.1, colon_notMem_of_mem_capitals hname, visible_of_mem_capitals hname⟩

/-! ## Names in quotes -/

/-- A name in quotes behind a lead, with a closing text behind it. -/
def quoted (opens : Bool) (leads : List String) (quotes : String) (closers : Set (List Char)) :
    Form where
  opens := opens
  leads := leads.map String.toList
  gaps := {gap | ∃ blank ∈ blankTexts, ∃ quote ∈ quotes.toList, gap = blank ++ [quote]}
  names := capitals
  tails := {tail | ∃ quote ∈ quotes.toList, ∃ closer ∈ closers, tail = quote :: closer}
  stops := fun _ => false

/-- The closing bracket, with blanks in front. -/
def bracketed : Set (List Char) := {closer | ∃ blank ∈ blankTexts, closer = blank ++ [']']}

theorem reads_blanks : ReadsAnywhere blanks blankTexts := by
  have hstar := reads_star .blank
  simp only [CharClass.admits_blank] at hstar
  exact hstar

/-- The pattern of a name in quotes, behind a pattern of leads. -/
theorem reads_quotedVariable (quotes : String) {a : Pattern} {A : Set (List Char)}
    (ha : Reads S a A) :
    ReadsNamed S (a ++ quotedVariable quotes)
      (Set.image2 (· ++ ·) A {gap | ∃ blank ∈ blankTexts, ∃ quote ∈ quotes.toList,
        gap = blank ++ [quote]}) capitals {tail | ∃ quote ∈ quotes.toList, tail = [quote]}
      fun _ => True := by
  have hquote : ReadsAnywhere (one (.ofString quotes))
      {tail | ∃ quote ∈ quotes.toList, tail = [quote]} := by
    have hone := reads_one (.ofString quotes)
    simpa only [CharClass.admits_ofString, List.contains_iff_mem] using hone
  have hp := ha.lead (((reads_blanks.seq hquote).lead reads_variableName).tail hquote)
  have hgaps : Set.image2 (· ++ ·) (Set.image2 (· ++ ·) blankTexts
      {tail | ∃ quote ∈ quotes.toList, tail = [quote]}) {([] : List Char)} =
        {gap | ∃ blank ∈ blankTexts, ∃ quote ∈ quotes.toList, gap = blank ++ [quote]} := by
    ext gap
    simp [Set.mem_image2, eq_comm]
  have htails : Set.image2 (· ++ ·) {([] : List Char)}
      {tail | ∃ quote ∈ quotes.toList, tail = [quote]} =
        {tail | ∃ quote ∈ quotes.toList, tail = [quote]} := by
    simp
  rw [hgaps, htails] at hp
  exact hp

section Quoted

variable {opens : Bool} {leads : List String} {quotes : String} {closers : Set (List Char)}
  {a : Pattern}

theorem quoted_describes_of_readsNamed
    (hp : ReadsNamed S p (Set.image2 (· ++ ·) {text | ∃ lead ∈ leads, text = lead.toList}
      (quoted opens leads quotes closers).gaps) capitals (quoted opens leads quotes closers).tails
      fun _ => True)
    (hopens : ∀ c, S c ↔ (opens = true → c.isAt (.wordEdge false false) = true)) :
    (quoted opens leads quotes closers).Describes p := by
  refine describes_of_readsNamed hp ?_ hopens (fun _ _ _ => rfl) fun _ => trivial
  intro text
  simp [quoted, Set.mem_image2, eq_comm]

theorem quoted_describes (ha : Reads S a {text | ∃ lead ∈ leads, text = lead.toList})
    (hopens : ∀ c, S c ↔ (opens = true → c.isAt (.wordEdge false false) = true)) :
    (quoted opens leads quotes {[]}).Describes (a ++ quotedVariable quotes) := by
  refine quoted_describes_of_readsNamed ?_ hopens
  have hp := reads_quotedVariable quotes ha
  have htails : (quoted opens leads quotes {[]}).tails =
      {tail | ∃ quote ∈ quotes.toList, tail = [quote]} := by
    simp [quoted]
  rw [htails]
  exact hp

theorem quoted_bracketed_describes (ha : Reads S a {text | ∃ lead ∈ leads, text = lead.toList})
    (hopens : ∀ c, S c ↔ (opens = true → c.isAt (.wordEdge false false) = true)) :
    (quoted opens leads quotes bracketed).Describes
      (a ++ quotedVariable quotes ++ blanks ++ text "]") := by
  refine quoted_describes_of_readsNamed ?_ hopens
  have hp := ((reads_quotedVariable quotes ha).tail reads_blanks).tail (reads_text "]")
  have htails : (quoted opens leads quotes bracketed).tails =
      Set.image2 (· ++ ·) (Set.image2 (· ++ ·) {tail | ∃ quote ∈ quotes.toList, tail = [quote]}
        blankTexts) {"]".toList} := by
    ext tail
    simp only [quoted, bracketed, Set.mem_image2]
    constructor
    · rintro ⟨quote, hquote, _, ⟨blank, hblank, rfl⟩, rfl⟩
      exact ⟨_, ⟨[quote], ⟨quote, hquote, rfl⟩, blank, hblank, rfl⟩, "]".toList, rfl, by simp⟩
    · rintro ⟨_, ⟨_, ⟨quote, hquote, rfl⟩, blank, hblank, rfl⟩, _, rfl, rfl⟩
      exact ⟨quote, hquote, _, ⟨blank, hblank, rfl⟩, by simp⟩
  rw [htails]
  exact hp

/-- The marks that can stand around a name in quotes. -/
def quoteMarks : List Char := ['\'', '"', '\x60', ']']

theorem isCapital_of_mem_quoteMarks : ∀ c ∈ quoteMarks, isCapital c = false := by
  have hall : quoteMarks.all (fun c => !isCapital c) = true := by decide
  simpa using hall

/-- What stands behind the lead of a name in quotes. -/
theorem mem_body_cases (hquotes : ∀ quote ∈ quotes.toList, quote ∈ quoteMarks)
    (hclosers : closers ⊆ insert [] bracketed) {gap name tail : List Char}
    (hgap : gap ∈ (quoted opens leads quotes closers).gaps) (hname : name ∈ capitals)
    (htail : tail ∈ (quoted opens leads quotes closers).tails) :
    ∀ c ∈ gap ++ (name ++ tail), Text.isBlank c = true ∨ isCapital c = true ∨ c ∈ quoteMarks := by
  obtain ⟨blank, hblank, quote, hquote, rfl⟩ := hgap
  obtain ⟨quote', hquote', closer, hcloser, rfl⟩ := htail
  intro c hc
  simp only [List.mem_append, List.mem_cons, List.not_mem_nil, or_false] at hc
  rcases hc with (hc | rfl) | hc | rfl | hc
  · exact .inl (hblank c hc)
  · exact .inr (.inr (hquotes c hquote))
  · exact .inr (.inl (hname.2 c hc))
  · exact .inr (.inr (hquotes c hquote'))
  · rcases hclosers hcloser with rfl | ⟨blank', hblank', rfl⟩
    · cases hc
    · rcases List.mem_append.1 hc with hc | hc
      · exact .inl (hblank' c hc)
      · exact .inr (.inr (List.mem_singleton.1 hc ▸ by decide))

theorem getLast?_tail (hquotes : ∀ quote ∈ quotes.toList, quote ∈ quoteMarks)
    (hclosers : closers ⊆ insert [] bracketed) {front tail : List Char}
    (htail : tail ∈ (quoted opens leads quotes closers).tails) :
    ∀ c ∈ (front ++ tail).getLast?, c ∈ quoteMarks := by
  obtain ⟨quote, hquote, closer, hcloser, rfl⟩ := htail
  intro c hc
  rcases hclosers hcloser with rfl | ⟨blank, -, rfl⟩
  · obtain rfl : quote = c := by simpa using hc
    exact hquotes quote hquote
  · rw [← List.cons_append, ← List.append_assoc, List.getLast?_concat] at hc
    obtain rfl : ']' = c := Option.some.inj hc
    decide

/-- The leads are apart, end with an opening mark that they alone hold, and begin with a word
character if they begin at the edge of a word. -/
structure Quotable (opens : Bool) (leads : List String) (quotes : String) : Prop where
  apart : apart (leads.map String.toList) = true
  quotes : ∀ quote ∈ quotes.toList, quote ∈ quoteMarks
  mark : ∀ lead ∈ leads, '(' ∈ lead.toList ∨ '[' ∈ lead.toList
  plain : ∀ lead ∈ leads, ∀ c ∈ quoteMarks, c ∉ lead.toList
  opens : opens = true → ∀ lead ∈ leads, ∀ c ∈ lead.toList.head?, Text.isWord c = true

/-- The test for leads and quotes. -/
def isQuotable (opens : Bool) (leads : List String) (quotes : String) : Bool :=
  Form.apart (leads.map String.toList) && quotes.toList.all (quoteMarks.contains ·) &&
    leads.all fun lead =>
      (lead.toList.contains '(' || lead.toList.contains '[') &&
        quoteMarks.all (fun c => !lead.toList.contains c) &&
          (!opens || lead.toList.head?.all Text.isWord)

theorem quotable_of_isQuotable (h : isQuotable opens leads quotes = true) :
    Quotable opens leads quotes := by
  simp only [isQuotable, Bool.and_eq_true, List.all_eq_true, List.contains_iff_mem, Bool.or_eq_true,
    Bool.not_eq_true', ← Bool.not_eq_true] at h
  obtain ⟨⟨hapart, hquotes⟩, hleads⟩ := h
  refine ⟨hapart, hquotes, fun lead hlead => (hleads lead hlead).1.1,
    fun lead hlead => (hleads lead hlead).1.2, fun hopens lead hlead c hc => ?_⟩
  have hhead := (hleads lead hlead).2.resolve_left fun hnot => hnot hopens
  rw [Option.mem_def.1 hc] at hhead
  exact hhead

theorem quoted_separate (h : Quotable opens leads quotes) (hclosers : closers ⊆ insert [] bracketed) :
    (quoted opens leads quotes closers).Separate where
  gap := by
    rintro _ ⟨blank, hblank, quote, hquote, rfl⟩ c hc
    rcases List.mem_append.1 hc with hc | hc
    · exact isCapital_eq_false (Text.isWord_of_isBlank (hblank c hc))
    · obtain rfl := List.mem_singleton.1 hc
      exact isCapital_of_mem_quoteMarks c (h.quotes c hquote)
  name _ hname := hname
  tail := by
    rintro _ ⟨quote, hquote, closer, -, rfl⟩ rest - c hc
    obtain rfl : quote = c := Option.some.inj hc
    exact isCapital_of_mem_quoteMarks quote (h.quotes quote hquote)
  word _ h := by cases h
  ends _ _ := .inr fun _ => rfl
  opens hopens other hother := by
    obtain ⟨lead, hlead, rfl⟩ := List.mem_map.1 hother
    exact h.opens hopens lead hlead
  restart := restart_of_apart h.apart
  last gap _ name _ tail htail c hc other hother := by
    obtain ⟨lead, hlead, rfl⟩ := List.mem_map.1 hother
    rw [← List.append_assoc] at hc
    exact h.plain lead hlead c (getLast?_tail h.quotes hclosers htail c hc)
  mark other hother := by
    obtain ⟨lead, hlead, rfl⟩ := List.mem_map.1 hother
    have hbody : ∀ c, Text.isBlank c = false → isCapital c = false → c ∉ quoteMarks →
        ∀ gap ∈ (quoted opens leads quotes closers).gaps, ∀ name ∈ capitals,
          ∀ tail ∈ (quoted opens leads quotes closers).tails, c ∉ gap ++ (name ++ tail) := by
      intro c hblank hcapital hmarks gap hgap name hname tail htail hc
      rcases mem_body_cases h.quotes hclosers hgap hname htail c hc with hc | hc | hc
      · simp [hblank] at hc
      · simp [hcapital] at hc
      · exact hmarks hc
    rcases h.mark lead hlead with hopen | hopen
    · exact ⟨'(', hopen, hbody '(' (by decide) (by decide) (by decide)⟩
    · exact ⟨'[', hopen, hbody '[' (by decide) (by decide) (by decide)⟩

theorem visible_of_mem_quoteMarks : ∀ c ∈ quoteMarks, Text.isBlank c = false ∧ c ≠ ';' := by
  decide

theorem quoted_marked (h : Quotable opens leads quotes) (hclosers : closers ⊆ insert [] bracketed)
    (hcolon : ∀ lead ∈ leads, ':' ∉ lead.toList) : (quoted opens leads quotes closers).Marked := by
  refine marked_of_leads ?_ ?_ ?_
  · intro other hother
    obtain ⟨lead, hlead, rfl⟩ := List.mem_map.1 hother
    rcases h.mark lead hlead with hopen | hopen
    · exact ⟨'(', hopen, by decide, fun h => absurd h (by decide)⟩
    · exact ⟨'[', hopen, by decide, fun h => absurd h (by decide)⟩
  · intro other hother c hc
    obtain ⟨lead, hlead, rfl⟩ := List.mem_map.1 hother
    have hquotes : ∀ quote ∈ Literal.quotes, quote ∈ quoteMarks := by decide
    exact ⟨fun hquote => h.plain lead hlead c (hquotes c hquote) hc,
      fun heq => hcolon lead hlead (heq ▸ hc)⟩
  · intro gap hgap name hname tail htail
    refine ⟨fun hnil => hname.1 ?_, fun hmem => ?_, fun c hc => ?_⟩
    · simp only [List.append_eq_nil_iff] at hnil
      exact hnil.2.1
    · rcases mem_body_cases h.quotes hclosers hgap hname htail ':' hmem with hc | hc | hc
      · exact absurd hc (by decide)
      · exact absurd hc (by decide)
      · exact absurd hc (by decide)
    · rw [← List.append_assoc] at hc
      exact visible_of_mem_quoteMarks c (getLast?_tail h.quotes hclosers htail c hc)

end Quoted

/-! ## Names behind a dollar sign -/

/-- The characters that a name behind a dollar sign can begin with. -/
def expandable : CharClass := .ofRanges [('A', 'Z'), ('_', '_')]

theorem isCapital_of_admits_expandable {c : Char} (h : expandable.admits c = true) :
    isCapital c = true := by
  rw [expandable, CharClass.admits_ofRanges] at h
  simp only [List.any_cons, List.any_nil, Bool.or_false, CharClass.between_upper,
    CharClass.le_and_le_self, Bool.or_eq_true] at h
  rw [isCapital_eq, Bool.or_eq_true, Bool.or_eq_true]
  exact h.imp .inl id

/-- A name behind a dollar sign, possibly with a brace between them. -/
def dollar : Form where
  opens := false
  leads := [['$']]
  gaps := {[], ['\x7b']}
  names := {name | ∃ c more, name = c :: more ∧ expandable.admits c = true ∧
    ∀ d ∈ more, isCapital d = true}
  tails := {[]}
  stops := isCapital

theorem mem_capitals_of_mem_dollar {name : List Char} (h : name ∈ dollar.names) :
    name ∈ capitals := by
  obtain ⟨c, more, rfl, hc, hmore⟩ := h
  exact ⟨List.cons_ne_nil c more, List.forall_mem_cons.2 ⟨isCapital_of_admits_expandable hc, hmore⟩⟩

theorem dollar_describes :
    dollar.Describes (text "$" ++ opt (text "\x7b")
      ++ group 1 (one expandable ++ star Language.upperChar)) := by
  have hname : ReadsAnywhere (one expandable ++ star Language.upperChar) dollar.names := by
    have hseq := (reads_one expandable).seq (reads_star Language.upperChar)
    have hset : Set.image2 (· ++ ·) {front | ∃ c, expandable.admits c = true ∧ front = [c]}
        {front | ∀ c ∈ front, Language.upperChar.admits c = true} = dollar.names := by
      ext name
      constructor
      · rintro ⟨_, ⟨c, hc, rfl⟩, more, hmore, rfl⟩
        exact ⟨c, more, rfl, hc, hmore⟩
      · rintro ⟨c, more, rfl, hc, hmore⟩
        exact ⟨[c], ⟨c, hc, rfl⟩, more, hmore, rfl⟩
    rwa [hset] at hseq
  have hp := ((reads_text "$").seq (reads_text "\x7b").opt).lead hname.named
  refine describes_of_readsNamed hp ?_ (by simp [dollar]) ?_ fun _ => trivial
  · intro text
    constructor
    · rintro ⟨_, ⟨_, rfl, brace, hbrace, rfl⟩, _, rfl, rfl⟩
      exact ⟨['$'], List.mem_singleton_self _, brace, hbrace, List.append_nil _⟩
    · rintro ⟨lead, hlead, brace, hbrace, rfl⟩
      obtain rfl := List.mem_singleton.1 hlead
      exact ⟨_, ⟨"$".toList, rfl, brace, hbrace, rfl⟩, [], rfl, List.append_nil _⟩
  · intro c r hfirst
    obtain ⟨mid, -, hgroup⟩ := hfirst.of_seq
    obtain ⟨last, hlast, rfl⟩ := hgroup.of_group
    obtain ⟨start, -, hstar⟩ := hlast.of_seq
    exact hstar.stops_star

theorem dollar_separate : dollar.Separate where
  gap := by
    rintro gap (rfl | rfl) c hc
    · cases hc
    · obtain rfl := List.mem_singleton.1 hc
      decide
  name _ hname := mem_capitals_of_mem_dollar hname
  tail := by
    rintro _ rfl rest hrest
    exact hrest
  word _ := isWord_of_isCapital
  ends _ htail := .inl htail
  opens h := by cases h
  restart := restart_of_apart (by decide)
  last := by
    rintro gap - name hname _ rfl c hc lead hlead hmem
    obtain rfl := List.mem_singleton.1 hlead
    obtain rfl := List.mem_singleton.1 hmem
    obtain ⟨hne, hall⟩ := mem_capitals_of_mem_dollar hname
    rw [List.append_nil, List.getLast?_append, List.getLast?_eq_some_getLast hne] at hc
    obtain hlast : name.getLast hne = '$' := Option.some.inj hc
    have hdollar := hall _ (List.getLast_mem hne)
    rw [hlast] at hdollar
    exact absurd hdollar (by decide)
  mark := by
    intro lead hlead
    obtain rfl := List.mem_singleton.1 hlead
    refine ⟨'$', List.mem_singleton_self _, ?_⟩
    rintro gap hgap name hname _ rfl hmem
    rw [List.append_nil, List.mem_append] at hmem
    rcases hmem with hmem | hmem
    · rcases hgap with rfl | rfl
      · cases hmem
      · exact absurd hmem (by decide)
    · exact absurd ((mem_capitals_of_mem_dollar hname).2 '$' hmem) (by decide)

theorem isAllCaps_of_mem_dollar {name : List Char} (h : name ∈ dollar.names) :
    isAllCaps name = true := by
  obtain ⟨c, more, rfl, hc, hmore⟩ := h
  rw [expandable, CharClass.admits_ofRanges] at hc
  simp only [List.any_cons, List.any_nil, Bool.or_false, CharClass.between_upper,
    CharClass.le_and_le_self] at hc
  rw [isAllCaps, Bool.and_eq_true, List.all_eq_true]
  exact ⟨hc, fun d hd => by rw [← isCapital_eq, hmore d hd]⟩

theorem dollar_marked : dollar.Marked := by
  refine marked_of_leads ?_ ?_ ?_
  · intro lead hlead
    obtain rfl := List.mem_singleton.1 hlead
    exact ⟨'$', List.mem_singleton_self _, by decide, fun _ name hname => isAllCaps_of_mem_dollar hname⟩
  · intro lead hlead
    obtain rfl := List.mem_singleton.1 hlead
    decide
  · rintro gap hgap name hname _ rfl
    have hcapitals := mem_capitals_of_mem_dollar hname
    rw [List.append_nil]
    refine ⟨fun hnil => hcapitals.1 (List.append_eq_nil_iff.1 hnil).2, fun hmem => ?_, fun c hc => ?_⟩
    · rcases List.mem_append.1 hmem with hmem | hmem
      · rcases hgap with rfl | rfl
        · cases hmem
        · exact absurd hmem (by decide)
      · exact colon_notMem_of_mem_capitals hcapitals hmem
    · rw [List.getLast?_append_of_ne_nil _ hcapitals.1] at hc
      exact visible_of_mem_capitals hcapitals c hc

/-! ## All patterns -/

theorem reads_lead (s : String) :
    ReadsAnywhere (text s) {text | ∃ lead ∈ [s], text = lead.toList} := by
  simpa using reads_text s

theorem reads_lead_wordEdge (s : String) :
    Reads (fun c => c.isAt (.wordEdge false false) = true) (wordEdge ++ text s)
      {text | ∃ lead ∈ [s], text = lead.toList} := by
  have hp := (reads_edge (.wordEdge false false)).seq (reads_text s)
  simp only [Set.image2_singleton, List.nil_append] at hp
  simp only [List.mem_singleton, exists_eq_left]
  exact hp

theorem reads_osLead :
    ReadsAnywhere (text "os." ++ anyText ["Getenv", "LookupEnv"] ++ text "(")
      {text | ∃ lead ∈ ["os.Getenv(", "os.LookupEnv("], text = lead.toList} := by
  have hp := ((reads_text "os.").seq ((reads_text "Getenv").alt (reads_text "LookupEnv"))).seq
    (reads_text "(")
  have hset : Set.image2 (· ++ ·) (Set.image2 (· ++ ·) {"os.".toList}
      ({"Getenv".toList} ∪ {"LookupEnv".toList})) {"(".toList} =
        {text | ∃ lead ∈ ["os.Getenv(", "os.LookupEnv("], text = lead.toList} := by
    ext text
    constructor
    · rintro ⟨_, ⟨_, rfl, _, rfl | rfl, rfl⟩, _, rfl, rfl⟩
      · exact ⟨"os.Getenv(", by simp, by simp⟩
      · exact ⟨"os.LookupEnv(", by simp, by simp⟩
    · rintro ⟨lead, hlead, rfl⟩
      simp only [List.mem_cons, List.not_mem_nil, or_false] at hlead
      rcases hlead with rfl | rfl
      · exact ⟨_, ⟨_, rfl, _, .inl rfl, rfl⟩, _, rfl, by simp⟩
      · exact ⟨_, ⟨_, rfl, _, .inr rfl, rfl⟩, _, rfl, by simp⟩
  rw [hset] at hp
  exact hp

theorem exists_form_dotted (lead : String) (hapart : apart [lead.toList] = true)
    (hsmall : lead.toList.all (fun c => !isCapital c) = true) (hdot : '.' ∈ lead.toList)
    (hplain : ∀ c ∈ lead.toList, c ∉ Literal.quotes ∧ c ≠ ':') :
    ∃ f : Form, f.Describes (text lead ++ variableName ++ wordEdge) ∧ f.Separate ∧ f.Marked :=
  ⟨dotted lead, dotted_describes lead,
    dotted_separate hapart (by simpa using hsmall) (List.ne_nil_of_mem hdot),
    dotted_marked hdot hplain⟩

theorem exists_form_quoted {a : Pattern} {leads : List String} (opens : Bool) (quotes : String)
    (ha : Reads S a {text | ∃ lead ∈ leads, text = lead.toList})
    (hopens : ∀ c, S c ↔ (opens = true → c.isAt (.wordEdge false false) = true))
    (h : Quotable opens leads quotes) (hcolon : ∀ lead ∈ leads, ':' ∉ lead.toList) :
    ∃ f : Form, f.Describes (a ++ quotedVariable quotes) ∧ f.Separate ∧ f.Marked :=
  ⟨quoted opens leads quotes {[]}, quoted_describes ha hopens, quoted_separate h (by simp),
    quoted_marked h (by simp) hcolon⟩

theorem exists_form_bracketed {a : Pattern} {leads : List String} (opens : Bool) (quotes : String)
    (ha : Reads S a {text | ∃ lead ∈ leads, text = lead.toList})
    (hopens : ∀ c, S c ↔ (opens = true → c.isAt (.wordEdge false false) = true))
    (h : Quotable opens leads quotes) (hcolon : ∀ lead ∈ leads, ':' ∉ lead.toList) :
    ∃ f : Form, f.Describes (a ++ quotedVariable quotes ++ blanks ++ text "]") ∧ f.Separate ∧
      f.Marked :=
  ⟨quoted opens leads quotes bracketed, quoted_bracketed_describes ha hopens,
    quoted_separate h (Set.subset_insert _ _), quoted_marked h (Set.subset_insert _ _) hcolon⟩

/-- Every pattern of the registry is described by a form. -/
theorem exists_form : ∀ p ∈ patterns, ∃ f : Form, f.Describes p ∧ f.Separate ∧ f.Marked := by
  have hanywhere : ∀ c : Cursor, True ↔ (false = true → c.isAt (.wordEdge false false) = true) := by
    simp
  have hatEdge : ∀ c : Cursor, c.isAt (.wordEdge false false) = true ↔
      (true = true → c.isAt (.wordEdge false false) = true) := by
    simp
  simp only [patterns, List.forall_mem_cons]
  refine ⟨?processDot, ?processBracket, ?importMeta, ?denoGet, ?environBracket, ?environGet, ?getenv,
    ?envBracket, ?envFetch, ?osGetenv, ?getVariable, ?expansion, by simp⟩
  case processDot | importMeta =>
    exact exists_form_dotted _ (by decide) (by decide) (by decide)
      (by decide)
  case processBracket | environBracket =>
    exact exists_form_bracketed false _ (reads_lead _) hanywhere (quotable_of_isQuotable (by decide))
      (by decide)
  case denoGet | environGet | getVariable =>
    exact exists_form_quoted false _ (reads_lead _) hanywhere (quotable_of_isQuotable (by decide +kernel))
      (by decide +kernel)
  case osGetenv =>
    exact exists_form_quoted false _ reads_osLead hanywhere (quotable_of_isQuotable (by decide +kernel))
      (by decide +kernel)
  case envBracket =>
    exact exists_form_bracketed true _ (reads_lead_wordEdge _) hatEdge (quotable_of_isQuotable (by decide +kernel))
      (by decide +kernel)
  case getenv | envFetch =>
    exact exists_form_quoted true _ (reads_lead_wordEdge _) hatEdge (quotable_of_isQuotable (by decide +kernel))
      (by decide +kernel)
  case expansion => exact ⟨dollar, dollar_describes, dollar_separate, dollar_marked⟩

end Form

/-- The name that a pattern first finds in a piece of a text is a name that the text reads, if the piece
is not cut out of the middle of a word. -/
theorem mem_namesIn_of_find? {p : Pattern} {front inner back : List Char} {found : Match}
    (hp : p ∈ patterns) (hfront : cutsWord front inner = false) (hback : cutsWord inner back = false)
    (hfound : p.find? inner = some found) :
    String.ofList ((found.group? 1).getD []) ∈ namesIn (front ++ (inner ++ back)) := by
  obtain ⟨f, hdescribes, hseparate, -⟩ := Form.exists_form p hp
  obtain ⟨m, hm, hgroup⟩ := hdescribes.exists_mem_allMatches hseparate hfront hback hfound
  refine List.mem_map_of_mem (List.mem_append_left _ (List.mem_flatMap.2 ⟨p, hp, ?_⟩))
  exact List.mem_map.2 ⟨m, hm, by rw [hgroup]⟩

end EnvAudit.Usage
