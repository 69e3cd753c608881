import EnvAudit.Language.Registry
import EnvAudit.Proofs.FileScan.Declared
import EnvAudit.Proofs.Pattern.Rounds
import EnvAudit.Proofs.Usage.Form

/-!
# Members of an object

The pattern for members of objects stays in step with them.  Each member of an object of scalars is
matched once, from its key to the end of its value, however the object is laid out and whatever the
texts in it hold.
-/

namespace EnvAudit.Language

open Pattern

/-! ## Quoted strings -/

/-- The characters of a quoted string that are not escaped. -/
def unescaped (quote : Char) : CharClass :=
  (CharClass.ofString (String.ofList [quote, '\\', '\n'])).complement

/-- A backslash and the character that it escapes. -/
def escape : Pattern := text "\\" ++ one .notNewline

/-- What stands between the quotes of a string, one at a time. -/
def item (quote : Char) : Pattern := one (unescaped quote) ||| escape

variable {quote c : Char} {content rest : List Char} {r r' : Reading}

theorem admits_unescaped : (unescaped quote).admits c = !([quote, '\\', '\n'].contains c) := by
  rw [unescaped, CharClass.admits_complement, CharClass.admits_ofString, String.toList_ofList]

theorem admits_notNewline_of_ne (h : c ≠ '\n') : CharClass.notNewline.admits c = true := by
  rw [CharClass.notNewline, CharClass.admits_complement, CharClass.admits_ofChar, Bool.not_eq_true',
    beq_eq_false_iff_ne]
  exact h

theorem proceeds_escape : Proceeds escape :=
  ((reads_text "\\").seq (reads_one .notNewline)).proceeds (by simp)

theorem proceeds_item (quote : Char) : Proceeds (item quote) :=
  (proceeds_one _).alt proceeds_escape

/-- A quoted string is read as characters and escapes, one after the other. -/
theorem ends_escapedString (quote : Char) (r : Reading) :
    (escapedString quote).ends r =
      (text quote.toString ++ loop (item quote) 0 none .greedy ++ text quote.toString).ends r := by
  let mark := text quote.toString
  let unrolled := star (unescaped quote) ++ loop (escape ++ star (unescaped quote)) 0 none .greedy
  have hitems : unrolled.ends = (loop (item quote) 0 none .greedy).ends :=
    funext (proceeds_escape.ends_star_seq_loop (unescaped quote))
  calc (escapedString quote).ends r
      = ((mark ++ star (unescaped quote) ++
          loop (escape ++ star (unescaped quote)) 0 none .greedy).ends r).flatMap mark.ends := rfl
    _ = ((mark ++ unrolled).ends r).flatMap mark.ends := by rw [ends_seq_assoc]
    _ = (((mark.ends r).flatMap unrolled.ends)).flatMap mark.ends := rfl
    _ = ((mark ++ loop (item quote) 0 none .greedy).ends r).flatMap mark.ends := by
        rw [hitems]
        rfl

/-- The inner text of a string is read up to its closing quote. -/
theorem first_items (hquote : quote ≠ '\\') (hitems : Literal.Items quote content)
    (hline : '\n' ∉ content) (hafter : r.cursor.after = content ++ quote :: rest) :
    First (loop (item quote) 0 none .greedy) r (r.pass content (quote :: rest)) := by
  induction hitems generalizing r with
  | nil =>
      have hone : (one (unescaped quote)).ends r = [] :=
        ends_one_eq_nil (by simp [hafter, admits_unescaped])
      have hescape : escape.ends r = [] :=
        ends_seq_eq_nil (FileScan.ends_text_eq_nil_of_head (by simpa [hafter] using hquote))
      rw [List.nil_append] at hafter
      rw [← hafter, Reading.pass_nil]
      exact first_loop_stop (proceeds_item quote) (ends_alt_eq_nil hone hescape)
  | @escape c more _ ih =>
      rw [List.mem_cons, List.mem_cons, not_or, not_or] at hline
      have hone : (one (unescaped quote)).ends r = [] :=
        ends_one_eq_nil (by simp [hafter, admits_unescaped])
      have hslash : First (text "\\") r (r.pass ['\\'] (c :: more ++ quote :: rest)) :=
        first_text (by rw [hafter]; rfl)
      have hescaped : First (one .notNewline) (r.pass ['\\'] (c :: more ++ quote :: rest))
          (r.pass ['\\', c] (more ++ quote :: rest)) :=
        first_one rfl (admits_notNewline_of_ne (Ne.symm hline.2.1))
      have hmore := ih (r := r.pass ['\\', c] (more ++ quote :: rest)) hline.2.2 rfl
      rw [Reading.pass_pass] at hmore
      exact .loop_round (proceeds_item quote) (.alt_right hone (hslash.seq hescaped)) hmore
  | @plain c more hslash hne _ ih =>
      rw [List.mem_cons, not_or] at hline
      have hone : First (one (unescaped quote)) r (r.pass [c] (more ++ quote :: rest)) :=
        first_one hafter (by rw [admits_unescaped]; simp [hslash, hne, Ne.symm hline.1])
      have hmore := ih (r := r.pass [c] (more ++ quote :: rest)) hline.2 rfl
      rw [Reading.pass_pass] at hmore
      exact .loop_round (proceeds_item quote) hone.alt_left hmore

theorem first_quote (hafter : r.cursor.after = quote :: rest) :
    First (text quote.toString) r (r.pass [quote] rest) := by
  have hmark : quote.toString.toList = [quote] := String.toList_singleton quote
  have hfirst : First (text quote.toString) r (r.pass quote.toString.toList rest) :=
    first_text (by rw [hafter, hmark]; rfl)
  rwa [hmark] at hfirst

/-- A quoted string is read to its closing quote, whatever is escaped in it. -/
theorem first_escapedString (hquote : quote ≠ '\\') (hitems : Literal.Items quote content)
    (hline : '\n' ∉ content) (hafter : r.cursor.after = quote :: (content ++ quote :: rest)) :
    First (escapedString quote) r (r.pass (quote :: (content ++ [quote])) rest) := by
  let inside := r.pass [quote] (content ++ quote :: rest)
  let closing := inside.pass content (quote :: rest)
  have hclose : First (text quote.toString) closing (closing.pass [quote] rest) := first_quote rfl
  have hpass : closing.pass [quote] rest = r.pass (quote :: (content ++ [quote])) rest := by
    simp [closing, inside, Reading.pass, Nat.add_assoc, Nat.add_comm 1]
  rw [First, ends_escapedString, ← hpass]
  exact ((first_quote hafter).seq (first_items hquote hitems hline rfl)).seq hclose

theorem ends_escapedString_eq_nil (h : ∀ c ∈ r.cursor.after.head?, c ≠ quote) :
    (escapedString quote).ends r = [] := by
  have hquote : (text quote.toString).ends r = [] := by
    refine ends_text_eq_nil fun hbegins => ?_
    rw [show quote.toString.toList = [quote] from String.toList_singleton quote] at hbegins
    obtain ⟨rest, hafter⟩ := hbegins
    exact h quote (by rw [← hafter]; rfl) rfl
  exact ends_seq_eq_nil (ends_seq_eq_nil (ends_seq_eq_nil hquote))

/-! ## Objects of scalars -/

/-- The characters of numbers. -/
def numberChars : List Char := "0123456789+-.eE".toList

/-- A value in an object: a string of escapes and other characters in one line, a number, or one of the
three words. -/
inductive Scalar
  | string (content : List Char) (items : Literal.Items '"' content) (oneLine : '\n' ∉ content)
  | number (digits : List Char) (nonempty : digits ≠ []) (isNumber : ∀ c ∈ digits, c ∈ numberChars)
  | word (name : String) (known : name ∈ ["true", "false", "null"])

namespace Scalar

/-- The value as it is written. -/
def text : Scalar → List Char
  | string content _ _ => '"' :: (content ++ ['"'])
  | number digits _ _ => digits
  | word name _ => name.toList

/-- What stands between the quotes of a string. -/
def content? : Scalar → Option String
  | string content _ _ => some (String.ofList content)
  | number _ _ _ | word _ _ => none

end Scalar

/-- A key of capitals, digits and underscores, and its value. -/
structure Member where
  key : List Char
  nonempty : key ≠ []
  isKey : ∀ c ∈ key, (c.isUpper || c.isDigit || c == '_') = true
  value : Scalar

/-- Blank characters. -/
structure Gap where
  chars : List Char := []
  isBlank : ∀ c ∈ chars, Text.isBlank c = true := by decide

/-- What stands between the parts of an object. -/
structure Layout where
  atStart : Gap := {}
  afterKey : Gap := {}
  beforeValue : Gap := {}
  afterValue : Gap := {}
  afterComma : Gap := {}
  atEnd : Gap := {}

/-- All in one line, without blanks. -/
def Layout.compact : Layout := {}

/-- Each member on a line of its own. -/
def Layout.perLine : Layout where
  atStart := { chars := ['\n', ' ', ' '] }
  beforeValue := { chars := [' '] }
  afterComma := { chars := ['\n', ' ', ' '] }
  atEnd := { chars := ['\n'] }

/-- A member and what stands behind its value. -/
def Member.text (layout : Layout) (member : Member) (behind : List Char) : List Char :=
  '"' :: (member.key ++ '"' :: (layout.afterKey.chars ++ ':' :: (layout.beforeValue.chars ++
    (member.value.text ++ behind))))

/-- The object that holds the members. -/
def objectText (layout : Layout) (members : List Member) : List Char :=
  let texts := members.map fun member => member.text layout layout.afterValue.chars
  '{' :: (layout.atStart.chars ++ ((',' :: layout.afterComma.chars).intercalate texts ++
    (layout.atEnd.chars ++ ['}'])))

example :
    objectText .compact [⟨['A'], by decide, by decide, .number ['-', '1'] (by decide) (by decide)⟩] =
      "\x7b\"A\":-1\x7d".toList := by
  decide

example :
    objectText .perLine
        [⟨['A', '_', '1'], by decide, by decide, .string ['\\', '"', ','] (.escape '"'
            (.plain (by decide) (by decide) .nil)) (by decide)⟩,
          ⟨['B'], by decide, by decide, .word "null" (by decide)⟩] =
      "\x7b\n  \"A_1\": \"\\\",\",\n  \"B\": null\n\x7d".toList := by
  decide

/-! ## Values -/

/-- The characters of a value without quotes. -/
def inValue : CharClass := (CharClass.ofString ",\x7d]\n").complement

/-- The value of a member of an object. -/
def memberValue : Pattern := escapedString '"' ||| escapedString '\'' ||| plus inValue

/-- A character that neither ends a value nor begins a literal. -/
def isBare (c : Char) : Bool :=
  !(Text.isBlank c || Literal.quotes.contains c || [',', '}', ']'].contains c)

variable {gap value : List Char}

theorem isBare_iff : isBare c = true ↔
    Text.isBlank c = false ∧ c ∉ Literal.quotes ∧ c ∉ [',', '}', ']'] := by
  rw [isBare, Bool.not_eq_true', Bool.or_eq_false_iff, Bool.or_eq_false_iff, and_assoc,
    ← Bool.not_eq_true (List.contains ..), List.contains_iff_mem,
    ← Bool.not_eq_true (List.contains ..), List.contains_iff_mem]

theorem not_mem_of_isBlank {marks : List Char} (hmarks : ∀ d ∈ marks, Text.isBlank d = false)
    (h : Text.isBlank c = true) : c ∉ marks :=
  fun hmem => Bool.false_ne_true ((hmarks c hmem).symm.trans h)

theorem admits_inValue : inValue.admits c = true ↔ c ∉ [',', '}', ']'] ∧ c ≠ '\n' := by
  rw [inValue, CharClass.admits_complement, CharClass.admits_ofString, Bool.not_eq_true',
    ← Bool.not_eq_true, List.contains_iff_mem]
  simp [and_assoc]

theorem trim_append_blanks (hne : value ≠ []) (hvalue : ∀ c ∈ value, isBare c = true)
    (hgap : ∀ c ∈ gap, Text.isBlank c = true) : Text.trim (value ++ gap) = value := by
  have hvisible : ∀ c ∈ value, Text.isBlank c = false := fun c hc => (isBare_iff.1 (hvalue c hc)).1
  have htrim : Text.trim ([] ++ (value ++ gap)) = value :=
    Text.trim_padded nofun hne hvisible hgap
  rwa [List.nil_append] at htrim

/-- The blank characters behind a value that are in its line. -/
def inLineOf (gap : List Char) : List Char := gap.takeWhile (· != '\n')

def afterLineOf (gap : List Char) : List Char := gap.dropWhile (· != '\n')

theorem inLineOf_append_afterLineOf (gap : List Char) : inLineOf gap ++ afterLineOf gap = gap :=
  List.takeWhile_append_dropWhile

theorem admits_inValue_of_isBare (h : isBare c = true) : inValue.admits c = true := by
  obtain ⟨hblank, -, hmark⟩ := isBare_iff.1 h
  refine admits_inValue.2 ⟨hmark, ?_⟩
  rintro rfl
  exact absurd hblank (by decide)

theorem admits_inValue_of_mem_inLineOf (hgap : ∀ c ∈ gap, Text.isBlank c = true)
    (h : c ∈ inLineOf gap) : inValue.admits c = true := by
  have hblank : Text.isBlank c = true := hgap c ((List.takeWhile_prefix _).subset h)
  have htest : (c != '\n') = true := List.mem_takeWhile_imp (p := (· != '\n')) h
  exact admits_inValue.2 ⟨not_mem_of_isBlank (by decide) hblank, bne_iff_ne.1 htest⟩

/-- A value without quotes ends at the end of its line, or else at what ends the member. -/
theorem not_admits_inValue_of_mem_afterLineOf (hc : c ∈ [',', '}']) {d : Char}
    (hd : d ∈ (afterLineOf gap ++ c :: rest).head?) : inValue.admits d = false := by
  rw [← Bool.not_eq_true, admits_inValue]
  rintro ⟨hmark, hline⟩
  cases hmore : afterLineOf gap with
  | nil =>
      rw [hmore] at hd
      cases hd
      exact hmark ((by decide : [',', '}'] ⊆ [',', '}', ']']) hc)
  | cons first more =>
      rw [hmore] at hd
      obtain rfl : first = d := Option.some.inj hd
      have hstop : (first != '\n') = false := stops_dropWhile first (by
        rw [← afterLineOf, hmore]
        rfl)
      exact hline (bne_eq_false_iff_eq.1 hstop)

/-- A value without quotes is read up to what ends it, with blank characters of its line. -/
theorem first_bare (hne : value ≠ []) (hvalue : ∀ c ∈ value, isBare c = true)
    (hgap : ∀ c ∈ gap, Text.isBlank c = true) (hc : c ∈ [',', '}'])
    (hafter : r.cursor.after = value ++ (gap ++ c :: rest)) :
    First memberValue r (r.pass (value ++ inLineOf gap) (afterLineOf gap ++ c :: rest)) := by
  have hstring (quote : Char) (hquote : quote ∈ Literal.quotes) :
      (escapedString quote).ends r = [] := by
    refine ends_escapedString_eq_nil fun d hd heq => ?_
    obtain ⟨first, more, rfl⟩ := List.exists_cons_of_ne_nil hne
    rw [hafter] at hd
    obtain rfl : first = d := Option.some.inj hd
    exact (isBare_iff.1 (hvalue first List.mem_cons_self)).2.1 (heq ▸ hquote)
  have hneither : (escapedString '"' ||| escapedString '\'').ends r = [] :=
    ends_alt_eq_nil (hstring '"' (by decide)) (hstring '\'' (by decide))
  refine .alt_right hneither (first_plus ?_ (List.append_ne_nil_of_left_ne_nil hne _) ?_
    fun d => not_admits_inValue_of_mem_afterLineOf hc)
  · rw [hafter, List.append_assoc, ← List.append_assoc (inLineOf gap), inLineOf_append_afterLineOf]
  · exact List.forall_mem_append.2 ⟨fun d hd => admits_inValue_of_isBare (hvalue d hd),
      fun d => admits_inValue_of_mem_inLineOf hgap⟩

/-- A value is a quoted string of items, or it is bare. -/
theorem Scalar.quoted_or_bare (value : Scalar) :
    (∃ content, Literal.Items '"' content ∧ '\n' ∉ content ∧
        value.text = '"' :: (content ++ ['"']) ∧ value.content? = some (String.ofList content)) ∨
      value.text ≠ [] ∧ (∀ c ∈ value.text, isBare c = true) ∧ value.content? = none := by
  cases value with
  | string content items oneLine => exact .inl ⟨content, items, oneLine, rfl, rfl⟩
  | number digits nonempty isNumber =>
      have hall : numberChars.all isBare = true := by decide
      exact .inr ⟨nonempty, fun c hc => List.all_eq_true.1 hall c (isNumber c hc), rfl⟩
  | word name known =>
      have hall : ["true", "false", "null"].all
          (fun name => !name.toList.isEmpty && name.toList.all isBare) = true := by decide
      have hname := List.all_eq_true.1 hall name known
      rw [Bool.and_eq_true, Bool.not_eq_true', List.isEmpty_eq_false_iff] at hname
      exact .inr ⟨hname.1, List.all_eq_true.1 hname.2, rfl⟩

theorem Scalar.exists_text_eq_cons (value : Scalar) :
    ∃ first more, value.text = first :: more ∧ Text.isBlank first = false := by
  rcases value.quoted_or_bare with ⟨content, -, -, htext, -⟩ | ⟨hne, hbare, -⟩
  · exact ⟨'"', _, htext, by decide⟩
  · obtain ⟨first, more, htext⟩ := List.exists_cons_of_ne_nil hne
    exact ⟨first, more, htext, (isBare_iff.1 (hbare first (htext ▸ List.mem_cons_self))).1⟩

/-- A value is read whole, and what is read beyond it is trimmed. -/
theorem first_memberValue (value : Scalar) (hgap : ∀ c ∈ gap, Text.isBlank c = true)
    (hc : c ∈ [',', '}']) (hafter : r.cursor.after = value.text ++ (gap ++ c :: rest)) :
    ∃ less more, gap = less ++ more ∧ Text.trim (value.text ++ less) = value.text ∧
      First memberValue r (r.pass (value.text ++ less) (more ++ c :: rest)) := by
  rcases value.quoted_or_bare with ⟨content, hitems, hline, htext, -⟩ | ⟨hne, hbare, -⟩
  · rw [htext] at hafter ⊢
    refine ⟨[], gap, rfl, ?_, ?_⟩
    · rw [List.append_nil]
      exact FileScan.trim_quoted content
    · rw [List.append_nil]
      refine (First.alt_left (first_escapedString (by decide) hitems hline ?_)).alt_left
      rw [hafter]
      simp
  · refine ⟨inLineOf gap, afterLineOf gap, (inLineOf_append_afterLineOf gap).symm, ?_,
      first_bare hne hbare hgap hc hafter⟩
    exact trim_append_blanks hne hbare fun c hc => hgap c ((List.takeWhile_prefix _).subset hc)

theorem text?_string {content : List Char} (hitems : Literal.Items '"' content) :
    Literal.text? (String.ofList ('"' :: (content ++ ['"']))) = some (String.ofList content) := by
  refine Literal.text?_eq_some_iff_quoteRuns.2
    ⟨'"', by decide, ?_, fun front rest heq => ?_, fun heq => absurd heq (by decide)⟩
  · rw [String.toList_ofList, String.toList_ofList, FileScan.trim_quoted]
  · rw [String.toList_ofList] at heq
    exact (((Literal.items_iff_quoteRuns (by decide)).1 hitems).1 front rest heq).pos

/-- The text of a string is what stands between its quotes, and no other value has one. -/
theorem Scalar.text?_text (value : Scalar) :
    Literal.text? (String.ofList value.text) = value.content? := by
  rcases value.quoted_or_bare with ⟨content, hitems, -, htext, hcontent⟩ | ⟨hne, hbare, hcontent⟩
  · rw [htext, hcontent, text?_string hitems]
  · rw [hcontent]
    refine Option.eq_none_iff_forall_ne_some.2 fun inner hinner => ?_
    obtain ⟨quote, hquote, htrim, -, -⟩ := Literal.text?_eq_some_iff_quoteRuns.1 hinner
    have hself : Text.trim (value.text ++ []) = value.text := trim_append_blanks hne hbare nofun
    rw [String.toList_ofList, ← List.append_nil value.text, hself] at htrim
    exact (isBare_iff.1 (hbare quote (htrim ▸ List.mem_cons_self))).2.1 hquote

/-! ## Members -/

/-- The candidate that a member shows. -/
def Member.candidate (member : Member) : Candidate where
  name := String.ofList member.key
  initializer := some (String.ofList member.value.text)

theorem Member.first_key (member : Member) (hafter : r.cursor.after = member.key ++ '"' :: rest) :
    First (named (plus upperChar)) r ((r.pass member.key ('"' :: rest)).close 1 r.cursor) := by
  refine (first_plus hafter member.nonempty ?_ ?_).group
  · intro c hc
    exact (Usage.isCapital_eq c).trans (member.isKey c hc)
  · rintro _ ⟨⟩
    exact Usage.isCapital_eq '"'

/-- The pattern reads a member from its key to the end of its value. -/
theorem Member.first_objectMember (member : Member) (layout : Layout)
    (hgap : ∀ c ∈ gap, Text.isBlank c = true) (hc : c ∈ [',', '}'])
    (hafter : r.cursor.after = member.text layout (gap ++ c :: rest)) :
    ∃ less more r', gap = less ++ more ∧ First objectMember r r' ∧
      r'.cursor = (r.pass (member.text layout less) (more ++ c :: rest)).cursor ∧
      Candidate.ofMatch ⟨r.cursor, r'⟩ = member.candidate := by
  let atValue := member.value.text ++ (gap ++ c :: rest)
  let atColon := ':' :: (layout.beforeValue.chars ++ atValue)
  let atName := r.pass ['"'] (member.key ++ '"' :: (layout.afterKey.chars ++ atColon))
  let behind := (atName.pass member.key ('"' :: (layout.afterKey.chars ++ atColon))).close 1 atName.cursor
  let closed := behind.pass ['"'] (layout.afterKey.chars ++ atColon)
  let colon := closed.pass layout.afterKey.chars atColon
  let begun := (colon.pass [':'] (layout.beforeValue.chars ++ atValue)).pass layout.beforeValue.chars atValue
  have hopen : First (one (.ofString "\"'")) r atName := first_one hafter (by decide)
  have hname : First (named (plus upperChar)) atName behind := member.first_key rfl
  have hclose : First (one (.ofString "\"'")) behind closed := first_one rfl (by decide)
  have hblanks : First blanks closed colon :=
    FileScan.first_blanks rfl layout.afterKey.isBlank (by rintro _ ⟨⟩; decide)
  have hcolon : First (Pattern.text ":") colon (colon.pass [':'] (layout.beforeValue.chars ++ atValue)) :=
    first_text rfl
  have hbegun : First blanks (colon.pass [':'] (layout.beforeValue.chars ++ atValue)) begun := by
    obtain ⟨first, following, htext, hfirst⟩ := member.value.exists_text_eq_cons
    refine FileScan.first_blanks rfl layout.beforeValue.isBlank ?_
    simp only [atValue, htext]
    rintro _ ⟨⟩
    exact hfirst
  obtain ⟨less, more, hsplit, htrim, hvalue⟩ :=
    first_memberValue (r := begun) member.value hgap hc rfl
  let done := (begun.pass (member.value.text ++ less) (more ++ c :: rest)).close 2 begun.cursor
  refine ⟨less, more, done, hsplit, (((((hopen.seq hname).seq hclose).seq hblanks).seq hcolon).seq
    hbegun).seq hvalue.group, ?_, ?_⟩
  · simp only [done, begun, colon, closed, behind, atName, Reading.pass, Reading.close, Member.text]
    simp
    omega
  · have hkey : Match.group? ⟨r.cursor, done⟩ 1 = some member.key := congrArg some (text_pass rfl)
    have hread : begun.cursor.after = (member.value.text ++ less) ++ (more ++ c :: rest) := by
      rw [List.append_assoc, ← List.append_assoc less, ← hsplit]
      rfl
    have hwhole : Match.group? ⟨r.cursor, done⟩ 2 = some (member.value.text ++ less) :=
      congrArg some (text_pass hread)
    rw [Candidate.ofMatch, hkey, hwhole, Option.map_some, htrim]
    rfl

/-! ## All members -/

/-- A character at which no member begins. -/
def isBetween (c : Char) : Bool := !(['"', '\''].contains c)

theorem ends_objectMember_eq_nil (h : ∀ c ∈ r.cursor.after.head?, isBetween c = true) :
    objectMember.ends r = [] := by
  have hopen : (one (.ofString "\"'")).ends r = [] := by
    refine ends_one_eq_nil fun c hc => ?_
    rw [CharClass.admits_ofString]
    exact (Bool.not_eq_true' _).mp (h c hc)
  exact ends_seq_eq_nil (ends_seq_eq_nil (ends_seq_eq_nil (ends_seq_eq_nil (ends_seq_eq_nil
    (ends_seq_eq_nil hopen)))))

theorem isBetween_of_isBlank (h : Text.isBlank c = true) : isBetween c = true := by
  have hnot : c ∉ ['"', '\''] := not_mem_of_isBlank (by decide) h
  rw [isBetween, Bool.not_eq_true', ← Bool.not_eq_true, List.contains_iff_mem]
  exact hnot

theorem matchesFrom_between {before skipped : List Char} {index free : Nat} (hfree : free ≤ index)
    (h : ∀ c ∈ skipped, isBetween c = true) :
    objectMember.matchesFrom before index free (skipped ++ rest) =
      objectMember.matchesFrom (skipped.reverse ++ before) (index + skipped.length) free rest :=
  matchesFrom_skip hfree fun c hc r hr => ends_objectMember_eq_nil fun d hd => by
    rw [hr] at hd
    exact Option.some.inj hd ▸ h c hc

theorem matchesFrom_eq_nil_of_between {before skipped : List Char} {index free : Nat}
    (h : ∀ c ∈ skipped, isBetween c = true) :
    objectMember.matchesFrom before index free skipped = [] :=
  matchesFrom_eq_nil fun front _ heq => ends_objectMember_eq_nil fun c hc =>
    h c (heq ▸ List.mem_append_right front (List.mem_of_head? hc))

/-- The blank characters behind a member. -/
def gapBehind (layout : Layout) : (others : List Member) → List Char
  | [] => layout.afterValue.chars ++ layout.atEnd.chars
  | _ :: _ => layout.afterValue.chars

/-- The other members, each behind a comma, and the end of the object. -/
def following (layout : Layout) : (others : List Member) → List Char
  | [] => ['}']
  | member :: more => ',' :: (layout.afterComma.chars ++
      member.text layout (gapBehind layout more ++ following layout more))

theorem isBlank_of_mem_gapBehind {layout : Layout} {others : List Member}
    (h : c ∈ gapBehind layout others) : Text.isBlank c = true := by
  cases others with
  | nil => exact (List.mem_append.1 h).elim (layout.afterValue.isBlank c) (layout.atEnd.isBlank c)
  | cons _ _ => exact layout.afterValue.isBlank c h

theorem exists_following_eq_cons (layout : Layout) (others : List Member) :
    ∃ c rest, following layout others = c :: rest ∧ c ∈ [',', '}'] := by
  cases others with
  | nil => exact ⟨'}', [], rfl, by decide⟩
  | cons member more => exact ⟨',', _, rfl, by decide⟩

theorem Member.text_append (layout : Layout) (member : Member) (behind : List Char) :
    member.text layout behind ++ rest = member.text layout (behind ++ rest) := by
  simp [Member.text]

theorem intercalate_append_atEnd (layout : Layout) (member : Member) (more : List Member) :
    (',' :: layout.afterComma.chars).intercalate
        ((member :: more).map fun member => member.text layout layout.afterValue.chars) ++
      (layout.atEnd.chars ++ ['}']) =
        member.text layout (gapBehind layout more ++ following layout more) := by
  induction more generalizing member with
  | nil => simp [gapBehind, following, List.intercalate, Member.text_append]
  | cons next more ih =>
      rw [gapBehind, following, ← ih next, ← Member.text_append]
      simp [List.intercalate]

/-- Behind what separates it from the one before, a member is matched next, and then the search goes
on in the blank characters behind it. -/
theorem exists_matchesFrom_member (layout : Layout) (member : Member) (more : List Member)
    (before : List Char) {skipped : List Char} {index free : Nat} (hfree : free ≤ index)
    (hskipped : ∀ c ∈ skipped, isBetween c = true) :
    ∃ m before' index' gap, Candidate.ofMatch m = member.candidate ∧
      (∀ c ∈ gap, Text.isBlank c = true) ∧
        objectMember.matchesFrom before index free
            (skipped ++ member.text layout (gapBehind layout more ++ following layout more)) =
          m :: objectMember.matchesFrom before' index' index' (gap ++ following layout more) := by
  obtain ⟨c, rest, hfollowing, hc⟩ := exists_following_eq_cons layout more
  rw [matchesFrom_between hfree hskipped, hfollowing]
  obtain ⟨less, gap, r', hgap, hfirst, hcursor, hcandidate⟩ :=
    member.first_objectMember layout (fun c hc => isBlank_of_mem_gapBehind hc) hc
      (r := ⟨⟨skipped.reverse ++ before, member.text layout (gapBehind layout more ++ c :: rest),
        index + skipped.length⟩, []⟩) rfl
  have hsplit : member.text layout (gapBehind layout more ++ c :: rest) =
      member.text layout less ++ (gap ++ c :: rest) := by
    rw [hgap, List.append_assoc, Member.text_append]
  rw [hsplit] at hfirst hcandidate ⊢
  refine ⟨_, _, _, gap, hcandidate, fun d hd => isBlank_of_mem_gapBehind (hgap ▸
    List.mem_append_right less hd), matchesFrom_of_first (hfree.trans (Nat.le_add_right _ _)) ?_
      hfirst hcursor⟩
  exact List.cons_ne_nil _ _

/-- From behind a member on, the others are matched one after the other. -/
theorem map_matchesFrom_following (layout : Layout) (others : List Member)
    {before gap : List Char} {index free : Nat} (hfree : free ≤ index)
    (hgap : ∀ c ∈ gap, Text.isBlank c = true) :
    (objectMember.matchesFrom before index free (gap ++ following layout others)).map
      Candidate.ofMatch = others.map Member.candidate := by
  have hbetween : ∀ c ∈ gap, isBetween c = true := fun c hc => isBetween_of_isBlank (hgap c hc)
  induction others generalizing before gap index free with
  | nil =>
      have hall : ∀ c ∈ gap ++ ['}'], isBetween c = true :=
        List.forall_mem_append.2 ⟨hbetween, by decide⟩
      rw [following, matchesFrom_eq_nil_of_between hall]
      rfl
  | cons member more ih =>
      have hskipped : ∀ c ∈ gap ++ ',' :: layout.afterComma.chars, isBetween c = true :=
        List.forall_mem_append.2 ⟨hbetween, List.forall_mem_cons.2
          ⟨rfl, fun c hc => isBetween_of_isBlank (layout.afterComma.isBlank c hc)⟩⟩
      obtain ⟨m, before', index', gap', hcandidate, hgap', hmatches⟩ :=
        exists_matchesFrom_member layout member more before hfree hskipped
      rw [List.append_assoc, List.cons_append] at hmatches
      rw [following, hmatches, List.map_cons, hcandidate, List.map_cons,
        ih le_rfl hgap' fun c hc => isBetween_of_isBlank (hgap' c hc)]


/-- In an object of scalars every member is a candidate, in their order, with its key as the name and
the whole value as the initial value, and there is no other.  The text of a literal is what stands
between the quotes of a string, and no other value has one. -/
theorem candidatesIn_objectText (layout : Layout) (members : List Member) :
    ∃ language, Language.find? "json" = some language ∧
      language.candidatesIn (objectText layout members) = [members.map Member.candidate] ∧
        ∀ member ∈ members,
          member.candidate.initializer.bind Literal.text? = member.value.content? := by
  refine ⟨_, rfl, ?_, fun member _ => member.value.text?_text⟩
  have hstart : ∀ c ∈ '{' :: layout.atStart.chars, isBetween c = true :=
    List.forall_mem_cons.2 ⟨rfl, fun c hc => isBetween_of_isBlank (layout.atStart.isBlank c hc)⟩
  have hmatches : (objectMember.allMatches (objectText layout members)).map Candidate.ofMatch =
      members.map Member.candidate := by
    rw [allMatches, objectText, ← List.cons_append]
    cases members with
    | nil =>
        have hall : ∀ c ∈ ('{' :: layout.atStart.chars) ++ (layout.atEnd.chars ++ ['}']),
            isBetween c = true :=
          List.forall_mem_append.2 ⟨hstart, List.forall_mem_append.2
            ⟨fun c hc => isBetween_of_isBlank (layout.atEnd.isBlank c hc), by decide⟩⟩
        exact congrArg (List.map Candidate.ofMatch) (matchesFrom_eq_nil_of_between hall)
    | cons member more =>
        obtain ⟨m, before, index, gap, hcandidate, hgap, hmatches⟩ :=
          exists_matchesFrom_member layout member more [] le_rfl hstart
        rw [intercalate_append_atEnd, hmatches, List.map_cons, hcandidate, List.map_cons,
          map_matchesFrom_following layout more le_rfl hgap]
  exact congrArg (fun candidates => [candidates]) hmatches

end EnvAudit.Language
