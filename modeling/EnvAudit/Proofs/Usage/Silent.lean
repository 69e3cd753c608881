import EnvAudit.Proofs.Usage.Listed

/-!
# Names that are assigned and not read

A name is given a quoted value that reads nothing.  A read elsewhere would have to open with a mark
outside the value.  Between the name and the value there is none, so it would have to stand in front of
the name.
-/

namespace EnvAudit

namespace Text

variable {whole more skipped front back rest read begun value behind : List Char} {mark : Char}

/-- The mark of a read stands in the first of two texts or in the second. -/
theorem mark_cases (h : whole ++ more = skipped ++ ((front ++ mark :: back) ++ rest)) :
    (∃ behind, whole = skipped ++ (front ++ mark :: behind)) ∨
      ∃ inner, skipped ++ front = whole ++ inner ∧ more = inner ++ mark :: (back ++ rest) := by
  have heq : whole ++ more = (skipped ++ front) ++ mark :: (back ++ rest) := by
    rw [h]
    simp only [List.append_assoc, List.cons_append]
  rcases List.append_eq_append_iff.1 heq with ⟨inner, hfront, hmore⟩ | ⟨behind, hwhole, hbehind⟩
  · exact .inr ⟨inner, hfront, hmore⟩
  · cases behind with
    | nil => exact .inr ⟨[], by rw [hwhole]; simp, hbehind.symm⟩
    | cons c behind =>
        obtain ⟨rfl, -⟩ := List.cons.inj hbehind
        exact .inl ⟨behind, by rw [hwhole, List.append_assoc]⟩

/-- A read ends in the first of two texts if the second does not hold its last character. -/
theorem exists_append_of_last (h : whole ++ more = read ++ rest)
    (hlast : ∀ c ∈ read.getLast?, c ∉ more) : ∃ after, whole = read ++ after ∧ rest = after ++ more := by
  rcases List.append_eq_append_iff.1 h with ⟨cut, hread, hmore⟩ | ⟨after, hwhole, hrest⟩
  · rcases List.eq_nil_or_concat' cut with rfl | ⟨begun, last, rfl⟩
    · exact ⟨[], by rw [hread, List.append_nil, List.append_nil], by rw [hmore, List.nil_append]; simp⟩
    · refine absurd ?_ (hlast last ?_)
      · rw [hmore]
        simp
      · rw [hread, ← List.append_assoc]
        simp
  · exact ⟨after, hwhole, hrest⟩

/-- A read whose mark stands in the second part of a text lies in the quoted value that this part begins
with, if the read does not end behind the value. -/
theorem exists_inside {quote : Char} (hfront : skipped ++ front = whole ++ begun)
    (hvalue : value ++ more = begun ++ mark :: (back ++ rest)) (hquote : value.head? = some quote)
    (hmark : mark ≠ quote) (hplain : quote ∉ front) (hlast : ∀ c ∈ (mark :: back).getLast?, c ∉ more) :
    ∃ before after, value = before ++ ((front ++ mark :: back) ++ after) ∧ before ≠ [] ∧
      skipped = whole ++ before ∧ rest = after ++ more := by
  have hhead : (begun ++ mark :: (back ++ rest)).head? = some quote := by
    rw [← hvalue, List.head?_append, hquote, Option.some_or]
  obtain ⟨begun, rfl⟩ : ∃ inner, begun = quote :: inner := by
    cases begun with
    | nil => exact absurd (Option.some.inj hhead) hmark
    | cons c inner => exact ⟨inner, by rw [Option.some.inj hhead]⟩
  rcases List.append_eq_append_iff.1 hfront with ⟨cut, -, hcut⟩ | ⟨before, hskipped, hbefore⟩
  · exact absurd (hcut ▸ List.mem_append_right cut List.mem_cons_self) hplain
  · have hne : before ≠ [] := by
      rintro rfl
      rw [List.nil_append] at hbefore
      exact hplain (hbefore ▸ List.mem_cons_self)
    have hread : value ++ more = (before ++ (front ++ mark :: back)) ++ rest := by
      rw [hvalue, hbefore]
      simp only [List.append_assoc, List.cons_append]
    obtain ⟨after, hinner, hrest⟩ := exists_append_of_last hread fun c hc => by
      rw [← List.append_assoc, List.getLast?_append_of_ne_nil _ (List.cons_ne_nil mark back)] at hc
      exact hlast c hc
    exact ⟨before, after, by rw [hinner, List.append_assoc], hne, hskipped, hrest⟩

/-- A read whose mark stands in a text that ends with a colon lies in this text, if the read holds no
colon. -/
theorem exists_in_front (h : whole ++ more = skipped ++ ((front ++ mark :: back) ++ rest))
    (hmark : whole = skipped ++ (front ++ mark :: behind)) (hcolon : whole.getLast? = some ':')
    (hplain : ':' ∉ front ++ mark :: back) :
    ∃ after, whole = skipped ++ ((front ++ mark :: back) ++ after) ∧ rest = after ++ more := by
  have heq : whole ++ more = (skipped ++ (front ++ mark :: back)) ++ rest := by
    rw [h, ← List.append_assoc]
  rcases List.append_eq_append_iff.1 heq with ⟨cut, hcut, -⟩ | ⟨after, hwhole, hrest⟩
  · refine absurd ?_ hplain
    rw [hmark, List.append_assoc] at hcut
    rw [List.append_cancel_left hcut]
    refine List.mem_append_left cut (List.mem_of_mem_getLast? ?_)
    rwa [hmark, List.getLast?_append_of_ne_nil _ (by simp)] at hcolon
  · exact ⟨after, by rw [hwhole, List.append_assoc], hrest⟩

end Text

namespace Usage

theorem isBlank_of_mem_openings : ∀ mark ∈ openings, Text.isBlank mark = false := by
  decide

/-- A text in which nothing reads a variable, and which holds no dollar sign. -/
structure Silent (text : List Char) : Prop where
  noDollar : '$' ∉ text
  noRead : ∀ p ∈ patterns, p.occursIn text = false
  noList : destructuring.occursIn text = false

variable {text skipped opened body named read rest before after front between behind begun value back
  more : List Char} {mark : Char} {name : String}

theorem Silent.not_foundAgain (h : Silent text) (hagain : FoundAgain skipped read rest)
    (htext : text = before ++ (read ++ after)) (hbefore : before.getLast? = skipped.getLast?)
    (hafter : ∀ c ∈ after.head?, c ∈ rest.head?) : False := by
  obtain ⟨p, hp, hfound⟩ := hagain
  have hoccurs := hfound before after hbefore hafter
  rw [← htext] at hoccurs
  rcases List.mem_cons.1 hp with rfl | hp
  · rw [h.noList] at hoccurs
    cases hoccurs
  · rw [h.noRead p hp] at hoccurs
    cases hoccurs

/-- What can stand in front of an assigned name without reading it: a text in which nothing opens a read,
one without marks of accessors, if the name is none for a dollar sign to expand, or a silent text without
braces that ends with a colon. -/
def Unread (name front : List Char) : Prop :=
  (∀ mark ∈ openings, mark ∉ front) ∨
    (isAllCaps name = false ∧ ∀ mark ∈ accessorMarks, mark ∉ front) ∨
      (front.getLast? = some ':' ∧ '\x7b' ∉ front ∧ Silent front)

theorem mem_head?_of_eq_append {more : List Char} (h : rest = after ++ more) :
    ∀ c ∈ after.head?, c ∈ rest.head? := by
  intro c hc
  rw [h, List.head?_append, Option.mem_def.1 hc]
  rfl

/-- No read of the name opens in front of it. -/
theorem Unread.not_opened (h : Unread name.toList front)
    (hcode : front ++ more = skipped ++ ((opened ++ mark :: body) ++ rest))
    (hmark : front = skipped ++ (opened ++ mark :: behind)) (hopened : Opened opened mark body named)
    (hexpands : mark = '$' → isAllCaps name.toList = true)
    (hagain : FoundAgain skipped (opened ++ mark :: body) rest) : False := by
  have hmem : mark ∈ front := by
    rw [hmark]
    simp
  rcases h with hnone | ⟨hcaps, hnone⟩ | ⟨hcolon, hbrace, hsilent⟩
  · exact hnone mark hopened.mem_openings hmem
  · have hdollar : mark = '$' :=
      (List.mem_cons.1 hopened.mem_openings).resolve_right fun haccessor => hnone mark haccessor hmem
    rw [hexpands hdollar] at hcaps
    cases hcaps
  · have hplain := hopened.noColon fun heq => hbrace (heq ▸ hmem)
    obtain ⟨after, heq, hrest⟩ := Text.exists_in_front hcode hmark hcolon hplain
    exact hsilent.not_foundAgain hagain heq rfl (mem_head?_of_eq_append hrest)

/-- A read does not end among blanks and semicolons. -/
theorem Opened.last_notMem (h : Opened opened mark body named)
    (hback : ∀ c ∈ back, Text.isBlank c = true ∨ c = ';') :
    ∀ c ∈ (mark :: body).getLast?, c ∉ back := by
  intro c hc hmem
  obtain ⟨hblank, hsemicolon⟩ := h.last c hc
  rcases hback c hmem with hmem | hmem
  · rw [hblank] at hmem
    cases hmem
  · exact hsemicolon hmem

/-- No read opens in a quoted silent value, behind which there are blanks and semicolons only. -/
theorem Silent.not_opened (h : Silent value) (hquote : ∃ quote ∈ Literal.quotes, value.head? = some quote)
    (hback : ∀ c ∈ back, Text.isBlank c = true ∨ c = ';') (hbegun : skipped ++ opened = front ++ begun)
    (hvalue : value ++ back = begun ++ mark :: (body ++ rest)) (hopened : Opened opened mark body named)
    (hagain : FoundAgain skipped (opened ++ mark :: body) rest) : False := by
  obtain ⟨quote, hquotes, hhead⟩ := hquote
  have hne : mark ≠ quote := by
    have hmarks : ∀ mark ∈ openings, mark ∉ Literal.quotes := by decide
    exact fun heq => hmarks mark hopened.mem_openings (heq ▸ hquotes)
  obtain ⟨before, after, heq, hbefore, hskipped, hrest⟩ := Text.exists_inside hbegun hvalue hhead hne
    (fun hmem => hopened.noQuote quote hmem hquotes) (hopened.last_notMem hback)
  refine h.not_foundAgain hagain heq ?_ (mem_head?_of_eq_append hrest)
  rw [hskipped, List.getLast?_append_of_ne_nil _ hbefore]

/-- A name that is assigned a quoted silent value is not read by the text, if it is not read in front of
itself. -/
theorem notMem_namesIn (hfront : Unread name.toList front) (hbetween : ∀ mark ∈ openings, mark ∉ between)
    (hquote : ∃ quote ∈ Literal.quotes, value.head? = some quote) (hvalue : Silent value)
    (hback : ∀ c ∈ back, Text.isBlank c = true ∨ c = ';') :
    name ∉ namesIn (front ++ (name.toList ++ (between ++ (value ++ back)))) := by
  intro hname
  obtain ⟨hcapitals, skipped, opened, mark, body, rest, named, hcode, hopened, hexpands, hagain⟩ :=
    exists_opened_of_mem_namesIn hname
  have hmiddle : mark ∉ name.toList ++ between := by
    rw [List.mem_append]
    rintro (hmem | hmem)
    · have hnone : ∀ mark ∈ openings, isCapital mark = false := by decide
      exact absurd (hcapitals mark hmem) (by simp [hnone mark hopened.mem_openings])
    · exact hbetween mark hopened.mem_openings hmem
  have hjoined := hcode
  rw [← List.append_assoc name.toList, ← List.append_assoc front] at hjoined
  rcases Text.mark_cases hjoined with ⟨behind, hmark⟩ | ⟨begun, hbegun, hvalueBegun⟩
  · rw [← List.append_nil (opened ++ mark :: behind)] at hmark
    obtain ⟨behind, hfrontMark⟩ := (Text.mark_cases hmark).resolve_right fun ⟨inner, _, hinner⟩ =>
      hmiddle (hinner ▸ List.mem_append_right inner List.mem_cons_self)
    exact hfront.not_opened hcode hfrontMark hopened hexpands hagain
  · exact hvalue.not_opened hquote hback hbegun hvalueBegun hopened hagain

end Usage

end EnvAudit
