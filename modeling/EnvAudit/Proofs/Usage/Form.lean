import EnvAudit.Literal
import EnvAudit.Proofs.Pattern.Named
import EnvAudit.Proofs.Text.Blank
import EnvAudit.Usage

/-!
# Forms of environment reads

Every way of reading a variable is a form: a fixed lead, a gap, the name and a tail.  Where the leads
cannot be mistaken for the rest, two reads never overlap, and so a read that is found in a piece of a
text is also found in the whole text, unless the piece is cut out of the middle of a word.
-/

namespace EnvAudit

open Pattern

/-- A cut between two texts goes through a word. -/
def cutsWord (front back : List Char) : Bool :=
  front.getLast?.any Text.isWord && back.head?.any Text.isWord

theorem cutsWord_eq_false_iff {front back : List Char} :
    cutsWord front back = false ↔
      ∀ c ∈ front.getLast?, Text.isWord c = true → ∀ d ∈ back.head?, Text.isWord d = false := by
  rw [cutsWord]
  cases front.getLast? with
  | none => simp
  | some c => cases back.head? <;> simp

theorem mem_getLast?_append {front back : List Char} {last : Char} (h : last ∈ back.getLast?) :
    last ∈ (front ++ back).getLast? := by
  rw [List.getLast?_append, Option.mem_def.1 h]
  rfl

namespace Usage

/-- Whether a character can stand in the name of a variable. -/
def isCapital (c : Char) : Bool := Language.upperChar.admits c

theorem isCapital_eq (c : Char) : isCapital c = (c.isUpper || c.isDigit || c == '_') := by
  rw [isCapital, Language.upperChar, CharClass.admits_ofRanges]
  simp only [List.any_cons, List.any_nil, Bool.or_false, CharClass.between_upper,
    CharClass.between_digit, CharClass.le_and_le_self, Bool.or_assoc]

theorem isWord_of_isCapital {c : Char} (h : isCapital c = true) : Text.isWord c = true := by
  have hword : Text.isAsciiWord c = true := by
    rw [isCapital_eq] at h
    rw [Text.isAsciiWord_eq]
    revert h
    cases c.isUpper <;> cases c.isDigit <;> cases c.isLower <;> simp
  rwa [Text.isWord, if_pos (Text.toNat_lt_of_isAsciiWord hword)]

/-- How the read of a variable is spelled. -/
structure Form where
  /-- Whether the lead begins at the edge of a word. -/
  opens : Bool
  leads : List (List Char)
  gaps : Set (List Char)
  names : Set (List Char)
  tails : Set (List Char)
  /-- The characters that may not follow. -/
  stops : Char → Bool

/-- The marks of accessors of the environment. -/
def accessorMarks : List Char := ['.', '(', '[', '\x7b']

/-- The marks that the reads of variables open with. -/
def openings : List Char := '$' :: accessorMarks

/-- A read opens with a mark.  No quote stands in front of the mark, and the read ends neither with a
blank nor with a semicolon. -/
structure Opened (front : List Char) (mark : Char) (back name : List Char) : Prop where
  mem_openings : mark ∈ openings
  noQuote : ∀ c ∈ front, c ∉ Literal.quotes
  expands : mark = '$' → isAllCaps name = true
  noColon : mark ≠ '\x7b' → ':' ∉ front ++ mark :: back
  last : ∀ c ∈ (mark :: back).getLast?, Text.isBlank c = false ∧ c ≠ ';'

namespace Form

/-- At the place stands a read of the form. -/
structure Fits (f : Form) (c : Cursor) (lead gap name tail rest : List Char) : Prop where
  mem_leads : lead ∈ f.leads
  mem_gaps : gap ∈ f.gaps
  mem_names : name ∈ f.names
  mem_tails : tail ∈ f.tails
  after : c.after = lead ++ (gap ++ (name ++ (tail ++ rest)))
  opens : f.opens = true → c.isAt (.wordEdge false false) = true
  stops : ∀ ch ∈ rest.head?, f.stops ch = false

/-- The pattern is read exactly where a read of the form stands. -/
structure Describes (f : Form) (p : Pattern) : Prop where
  fits : ∀ {c : Cursor} {m : Match}, p.matchAt? c = some m → ∃ lead gap name tail rest,
    f.Fits c lead gap name tail rest ∧ m.group? 1 = some name ∧
      m.reading.cursor.index = c.index + (lead ++ (gap ++ (name ++ tail))).length
  matchAt? : ∀ {c : Cursor} {lead gap name tail rest : List Char},
    f.Fits c lead gap name tail rest → ∃ m, p.matchAt? c = some m

/-- The name of a read can be told from what surrounds it, and no read begins inside another. -/
structure Separate (f : Form) : Prop where
  gap : ∀ gap ∈ f.gaps, ∀ c ∈ gap, isCapital c = false
  name : ∀ name ∈ f.names, name ≠ [] ∧ ∀ c ∈ name, isCapital c = true
  tail : ∀ tail ∈ f.tails, ∀ rest : List Char, (∀ c ∈ rest.head?, f.stops c = false) →
    ∀ c ∈ (tail ++ rest).head?, isCapital c = false
  word : ∀ c, f.stops c = true → Text.isWord c = true
  ends : ∀ tail ∈ f.tails, tail = [] ∨ ∀ c, f.stops c = false
  opens : f.opens = true → ∀ lead ∈ f.leads, ∀ c ∈ lead.head?, Text.isWord c = true
  /-- No end of a lead begins another one. -/
  restart : ∀ first ∈ f.leads, ∀ second ∈ f.leads, ∀ front back, first = front ++ back → back ≠ [] →
    (front ≠ [] ∨ first ≠ second) → ¬ back <+: second ∧ ¬ second <+: back
  last : ∀ gap ∈ f.gaps, ∀ name ∈ f.names, ∀ tail ∈ f.tails,
    ∀ c ∈ (gap ++ (name ++ tail)).getLast?, ∀ lead ∈ f.leads, c ∉ lead
  mark : ∀ lead ∈ f.leads, ∃ c ∈ lead, ∀ gap ∈ f.gaps, ∀ name ∈ f.names, ∀ tail ∈ f.tails,
    c ∉ gap ++ (name ++ tail)

/-- Every read of the form opens with a mark. -/
def Marked (f : Form) : Prop := ∀ lead ∈ f.leads, ∀ gap ∈ f.gaps, ∀ name ∈ f.names, ∀ tail ∈ f.tails,
  ∃ front mark back, lead ++ (gap ++ (name ++ tail)) = front ++ mark :: back ∧
    Opened front mark back name

variable {f : Form} {p : Pattern} {c c' : Cursor} {lead gap name tail rest : List Char}
  {lead' gap' name' tail' rest' : List Char}

theorem Fits.eq_append (h : f.Fits c lead gap name tail rest) :
    c.after = lead ++ ((gap ++ (name ++ tail)) ++ rest) := by
  rw [h.after]
  simp only [List.append_assoc]

theorem Separate.lead_ne_nil (hf : f.Separate) (h : lead ∈ f.leads) : lead ≠ [] := by
  obtain ⟨mark, hmark, -⟩ := hf.mark lead h
  exact List.ne_nil_of_mem hmark

theorem prefix_or_prefix {first second x y : List Char} (h : first ++ x = second ++ y) :
    first <+: second ∨ second <+: first :=
  List.prefix_or_prefix_of_prefix (List.prefix_append first x) (h ▸ List.prefix_append second y)

/-- No lead begins inside the rest of a read. -/
theorem Separate.not_lead_in_body (hf : f.Separate) (h : f.Fits c lead gap name tail rest)
    (h' : f.Fits c' lead' gap' name' tail' rest') {front back x y : List Char}
    (hbody : gap ++ (name ++ tail) = front ++ back) (hne : back ≠ []) : lead' ++ x ≠ back ++ y := by
  intro heq
  rcases prefix_or_prefix heq with hbegins | hbegins
  · obtain ⟨mark, hmark, hnot⟩ := hf.mark lead' h'.mem_leads
    refine hnot gap h.mem_gaps name h.mem_names tail h.mem_tails ?_
    rw [hbody]
    exact List.mem_append_right front (hbegins.subset hmark)
  · obtain ⟨before, last, rfl⟩ := List.eq_nil_or_concat back |>.resolve_left hne
    have hlast : last ∈ (gap ++ (name ++ tail)).getLast? := by
      simp [hbody]
    exact hf.last gap h.mem_gaps name h.mem_names tail h.mem_tails last hlast lead' h'.mem_leads
      (hbegins.subset (by simp))

/-- No read begins inside another one. -/
theorem Separate.not_overlap (hf : f.Separate) (h : f.Fits c lead gap name tail rest)
    (h' : f.Fits c' lead' gap' name' tail' rest') {front : List Char} (hne : front ≠ [])
    (hafter : c.after = front ++ c'.after) :
    (lead ++ (gap ++ (name ++ tail))).length ≤ front.length := by
  by_contra hlt
  rw [Nat.not_le, List.length_append] at hlt
  have heq : lead ++ ((gap ++ (name ++ tail)) ++ rest) =
      front ++ (lead' ++ ((gap' ++ (name' ++ tail')) ++ rest')) := by
    rw [← h.eq_append, hafter, h'.eq_append]
  rcases List.append_eq_append_iff.1 heq with ⟨more, rfl, hbody⟩ | ⟨back, rfl, hbody⟩
  · -- The second lead begins behind the first one.
    rw [List.length_append] at hlt
    rcases List.append_eq_append_iff.1 hbody with ⟨more, rfl, -⟩ | ⟨back, hsplit, hrest⟩
    · rw [List.length_append] at hlt
      omega
    · refine hf.not_lead_in_body h h' hsplit ?_ hrest
      rintro rfl
      rw [hsplit, List.append_nil] at hlt
      omega
  · rcases eq_or_ne back [] with rfl | hback
    · refine hf.not_lead_in_body h h' (List.nil_append _).symm ?_ hbody
      intro hnil
      simp [(hf.name name h.mem_names).1] at hnil
    · -- The second lead begins inside the first one.
      obtain ⟨hnot, hnot'⟩ := hf.restart _ h.mem_leads lead' h'.mem_leads front back rfl hback (.inl hne)
      rcases prefix_or_prefix hbody with hbegins | hbegins
      · exact hnot' hbegins
      · exact hnot hbegins

theorem takeWhile_dropWhile_eq {test : Char → Bool} {gap name after : List Char}
    (hgap : ∀ c ∈ gap, test c = false) (hname : name ≠ [] ∧ ∀ c ∈ name, test c = true)
    (hafter : ∀ c ∈ after.head?, test c = false) :
    ((gap ++ (name ++ after)).dropWhile fun c => !test c).takeWhile test = name := by
  obtain ⟨hne, hall⟩ := hname
  have hstop : after.takeWhile test = [] := by
    cases after with
    | nil => rfl
    | cons c after => rw [List.takeWhile_cons, hafter c rfl]; rfl
  have hdrop : (name ++ after).dropWhile (fun c => !test c) = name ++ after := by
    obtain ⟨c, more, rfl⟩ := List.exists_cons_of_ne_nil hne
    rw [List.cons_append, List.dropWhile_cons, hall c List.mem_cons_self]
    rfl
  rw [List.dropWhile_append_of_pos fun c hc => by simp [hgap c hc], hdrop,
    List.takeWhile_append_of_pos hall, hstop, List.append_nil]

/-- At one place there is one name to read. -/
theorem Separate.name_unique (hf : f.Separate) (h : f.Fits c lead gap name tail rest)
    (h' : f.Fits c lead' gap' name' tail' rest') : name = name' := by
  have hname : ∀ {lead gap name tail rest}, f.Fits c lead gap name tail rest →
      ((gap ++ (name ++ (tail ++ rest))).dropWhile fun c => !isCapital c).takeWhile isCapital = name :=
    fun h => takeWhile_dropWhile_eq (hf.gap _ h.mem_gaps) (hf.name _ h.mem_names)
      (hf.tail _ h.mem_tails _ h.stops)
  have hlead : lead = lead' := by
    by_contra hne
    obtain ⟨hnot, hnot'⟩ := hf.restart lead h.mem_leads lead' h'.mem_leads [] lead rfl
      (hf.lead_ne_nil h.mem_leads) (.inr hne)
    rcases prefix_or_prefix (h.after.symm.trans h'.after) with hbegins | hbegins
    · exact hnot hbegins
    · exact hnot' hbegins
  subst hlead
  rw [← hname h, List.append_cancel_left (h.after.symm.trans h'.after), hname h']

/-! ## Reads in a piece of a text -/

theorem isAt_wordEdge_iff :
    c.isAt (.wordEdge false false) = true ↔
      c.before.head?.any Text.isWord ≠ c.after.head?.any Text.isWord := by
  obtain ⟨before, after, index⟩ := c
  have hword : CharKind.word.admits false = Text.isWord := rfl
  rw [Cursor.isAt, hword, Bool.and_eq_true]
  cases before <;> cases after <;> simp [bne_iff_ne]

/-- A read depends on whether a word stands in front of it and on the character behind it, and on
nothing else. -/
theorem Fits.congr_word (h : f.Fits c lead gap name tail rest)
    (hafter : c'.after = lead ++ (gap ++ (name ++ (tail ++ rest'))))
    (hbefore : c'.before.head?.any Text.isWord = c.before.head?.any Text.isWord)
    (hne : lead ++ (gap ++ (name ++ tail)) ≠ [])
    (hrest : ∀ ch ∈ rest'.head?, ch ∈ rest.head?) : f.Fits c' lead gap name tail rest' := by
  refine ⟨h.mem_leads, h.mem_gaps, h.mem_names, h.mem_tails, hafter, fun hopens => ?_,
    fun ch hch => h.stops ch (hrest ch hch)⟩
  have hhead : ∀ rest, (lead ++ (gap ++ (name ++ (tail ++ rest)))).head? =
      (lead ++ (gap ++ (name ++ tail))).head? := fun rest => by
    rw [← List.append_assoc name, ← List.append_assoc gap, ← List.append_assoc lead,
      List.head?_append_of_ne_nil _ hne]
  have hedge := isAt_wordEdge_iff.1 (h.opens hopens)
  rw [h.after, hhead] at hedge
  rwa [isAt_wordEdge_iff, hbefore, hafter, hhead]

/-- A read depends on the character in front of it and on the one behind it, and on no other. -/
theorem Fits.congr (h : f.Fits c lead gap name tail rest)
    (hafter : c'.after = lead ++ (gap ++ (name ++ (tail ++ rest'))))
    (hbefore : c'.before.head? = c.before.head?) (hne : lead ++ (gap ++ (name ++ tail)) ≠ [])
    (hrest : ∀ ch ∈ rest'.head?, ch ∈ rest.head?) : f.Fits c' lead gap name tail rest' :=
  h.congr_word hafter (by rw [hbefore]) hne hrest

/-- A read in a piece of a text is a read in the text, if the piece is not cut out of the middle of a
word. -/
theorem Separate.fits_append (hf : f.Separate) {front back skipped next : List Char} {index : Nat}
    (h : f.Fits ⟨skipped.reverse, next, index⟩ lead gap name tail rest)
    (hfront : cutsWord front (skipped ++ next) = false)
    (hback : cutsWord (skipped ++ next) back = false) :
    f.Fits ⟨(front ++ skipped).reverse, next ++ back, front.length + index⟩ lead gap name tail
      (rest ++ back) := by
  have hnext : next = lead ++ (gap ++ (name ++ (tail ++ rest))) := h.after
  obtain ⟨first, lead, rfl⟩ := List.exists_cons_of_ne_nil (hf.lead_ne_nil h.mem_leads)
  refine ⟨h.mem_leads, h.mem_gaps, h.mem_names, h.mem_tails, ?_, ?_, ?_⟩
  · simp only [hnext, List.append_assoc]
  · intro hopens
    have hfirst : Text.isWord first = true := hf.opens hopens _ h.mem_leads first rfl
    have hbefore := isAt_wordEdge_iff.1 (h.opens hopens)
    have hahead : (next.head?.any Text.isWord) = true := by
      rw [hnext]
      exact hfirst
    have hsame : (next ++ back).head? = next.head? := by rw [hnext]; rfl
    rw [isAt_wordEdge_iff]
    simp only [hahead, hsame] at hbefore ⊢
    rcases List.eq_nil_or_concat skipped with rfl | ⟨before, last, rfl⟩
    · rw [List.nil_append, cutsWord, hahead, Bool.and_true] at hfront
      rw [List.append_nil, List.head?_reverse, hfront]
      exact Bool.false_ne_true
    · simpa using hbefore
  · intro ch hch
    by_contra hstop
    rw [Bool.not_eq_false] at hstop
    cases rest with
    | cons c rest => exact absurd (h.stops ch hch) (by simp [hstop])
    | nil =>
        rcases hf.ends tail h.mem_tails with rfl | hnever
        · obtain ⟨hname, hcapital⟩ := hf.name name h.mem_names
          have hlast : name.getLast hname ∈ (skipped ++ next).getLast? := by
            rw [hnext, List.append_nil, List.append_nil]
            exact mem_getLast?_append (mem_getLast?_append (mem_getLast?_append
              (List.getLast?_eq_some_getLast hname)))
          have hword := isWord_of_isCapital (hcapital _ (List.getLast_mem hname))
          have hch' := cutsWord_eq_false_iff.1 hback _ hlast hword ch hch
          rw [hf.word ch hstop] at hch'
          cases hch'
        · rw [hnever ch] at hstop
          cases hstop

theorem exists_of_findFrom? {before after : List Char} {index : Nat} {m : Match}
    (h : p.findFrom? before index after = some m) :
    ∃ skipped next, after = skipped ++ next ∧
      p.matchAt? ⟨skipped.reverse ++ before, next, index + skipped.length⟩ = some m := by
  induction after generalizing before index with
  | nil => exact ⟨[], [], rfl, h⟩
  | cons c after ih =>
      rw [findFrom?] at h
      split at h
      · rename_i hfound
        cases h
        exact ⟨[], c :: after, rfl, hfound⟩
      · obtain ⟨skipped, next, rfl, hfound⟩ := ih h
        refine ⟨c :: skipped, next, rfl, ?_⟩
        simpa [Nat.add_assoc, Nat.add_comm 1] using hfound

/-- The name that a pattern first finds in a piece of a text is a name that it finds in the text, if
the piece is not cut out of the middle of a word. -/
theorem Describes.exists_mem_allMatches (hp : f.Describes p) (hf : f.Separate)
    {front inner back : List Char} {found : Match} (hfront : cutsWord front inner = false)
    (hback : cutsWord inner back = false) (hfound : p.find? inner = some found) :
    ∃ m ∈ p.allMatches (front ++ (inner ++ back)), m.group? 1 = found.group? 1 := by
  obtain ⟨skipped, next, rfl, hinner⟩ := exists_of_findFrom? hfound
  rw [List.append_nil] at hinner
  obtain ⟨lead, gap, name, tail, rest, hfits, hgroup, -⟩ := hp.fits hinner
  have hwhole := hf.fits_append hfits hfront hback
  obtain ⟨m, hm⟩ := hp.matchAt? hwhole
  obtain ⟨lead', gap', name', tail', rest', hfits', hgroup', -⟩ := hp.fits hm
  refine ⟨m, ?_, ?_⟩
  · have htext : front ++ (skipped ++ next ++ back) = (front ++ skipped) ++ (next ++ back) := by
      simp only [List.append_assoc]
    have hlength : front.length + (0 + skipped.length) = 0 + (front ++ skipped).length := by
      rw [List.length_append]
      omega
    rw [hlength] at hm
    rw [htext, allMatches]
    refine mem_matchesFrom (by rwa [List.append_nil]) (Nat.zero_le _) ?_
    intro before more heq hmore earlier hearlier
    obtain ⟨_, _, _, _, _, hfits₀, -, hindex⟩ := hp.fits hearlier
    have hle := hf.not_overlap hfits₀ hwhole hmore rfl
    have hlead : 0 < (_ : List Char).length := List.length_pos_of_ne_nil (hf.lead_ne_nil hfits₀.mem_leads)
    rw [hindex, heq]
    simp only [List.length_append] at hle ⊢
    omega
  · rw [hgroup, hgroup', hf.name_unique hwhole hfits']

end Form

end Usage

end EnvAudit
