import EnvAudit.Language.Registry
import EnvAudit.Proofs.Pattern.Advance
import EnvAudit.Proofs.Pattern.Marks
import EnvAudit.Proofs.Usage.Form

/-!
# Initial values end where words end

The initial value of a candidate begins behind a mark or a blank, and ends in front of one or at the
end of its line.  It is thus not cut out of the middle of a word.  One pattern is an exception: that of
properties, which reads a variable of the process environment as far as its capitals go.
-/

namespace EnvAudit

open Pattern

namespace Cursor

/-- The place is in the middle of a word. -/
def insideWord (c : Cursor) : Bool := cutsWord c.before.reverse c.after

theorem insideWord_eq_false_iff {c : Cursor} :
    c.insideWord = false ↔ ∀ ch ∈ c.before.head?, Text.isWord ch = true → c.BeforeMark := by
  rw [insideWord, cutsWord_eq_false_iff, List.getLast?_reverse]
  rfl

theorem AfterMark.insideWord {c : Cursor} (h : c.AfterMark) : c.insideWord = false := by
  refine insideWord_eq_false_iff.2 fun ch hch hword => ?_
  rw [h ch hch] at hword
  cases hword

theorem BeforeMark.insideWord {c : Cursor} (h : c.BeforeMark) : c.insideWord = false :=
  insideWord_eq_false_iff.2 fun _ _ _ => h

end Cursor

/-- The value that group 2 has read last begins behind a mark and ends where the place is. -/
structure Reading.EndsValue (r : Reading) (capture : Capture) (c : Cursor) : Prop where
  capture? : r.capture? 2 = some capture
  start : capture.start.AfterMark
  stop : capture.stop = c
  le : capture.start.index ≤ c.index

namespace Language

variable {pre body post : Pattern} {r r' : Reading}

theorem exists_endsValue (hpre : EndsAfterMark pre) (h : r' ∈ (pre ++ valued body).ends r) :
    ∃ capture, r'.EndsValue capture r'.cursor := by
  obtain ⟨mid, hmid, hend⟩ := List.mem_flatMap.1 h
  obtain ⟨last, hlast, rfl⟩ := List.mem_map.1 hend
  have hle := advances_ends body mid last hlast
  exact ⟨⟨2, mid.cursor, last.cursor⟩, rfl, hpre r mid hmid, rfl, (Nat.le_add_right _ _).trans hle⟩

/-- What the first run reads into group 2 is not cut out of the middle of a word. -/
def BoundsValue (p : Pattern) : Prop :=
  ∀ r r', First p r r' → ∃ capture c, r'.EndsValue capture c ∧ c.insideWord = false

theorem boundsValue (hpre : EndsAfterMark pre)
    (hbody : ∀ r r', First body r r' → r'.cursor.insideWord = false) :
    BoundsValue (pre ++ valued body) := by
  intro r r' hfirst
  obtain ⟨capture, hvalue⟩ := exists_endsValue hpre hfirst.mem
  obtain ⟨mid, -, hgroup⟩ := hfirst.of_seq
  obtain ⟨last, hlast, rfl⟩ := hgroup.of_group
  exact ⟨capture, _, hvalue, hbody mid last hlast⟩

/-- The pattern reads on in front of marks only, and remembers nothing. -/
def Guards (p : Pattern) : Prop :=
  ∀ r, ∀ r' ∈ p.ends r, r.cursor.BeforeMark ∧ r'.captures = r.captures

theorem boundsValue_of_guards (hpre : EndsAfterMark pre) (hpost : Guards post) :
    BoundsValue (pre ++ valued body ++ post) := by
  intro r r' hfirst
  obtain ⟨mid, hmid, hrest⟩ := hfirst.of_seq
  obtain ⟨capture, hvalue⟩ := exists_endsValue hpre hmid
  obtain ⟨hmark, hcaptures⟩ := hpost mid r' hrest.mem
  refine ⟨capture, mid.cursor, ⟨?_, hvalue.start, hvalue.stop, hvalue.le⟩, hmark.insideWord⟩
  rw [Reading.capture?, hcaptures]
  exact hvalue.capture?

/-! ## Guards -/

theorem guards_text {s : String} (hne : s.toList ≠ [])
    (hhead : Text.isWord (s.toList.head hne) = false) : Guards (text s) := by
  intro r r' hmem
  obtain ⟨-, _, rfl, rest, hafter, rfl⟩ := (reads_text s r r').1 hmem
  refine ⟨fun ch hch => ?_, rfl⟩
  rw [hafter, List.head?_append, List.head?_eq_some_head hne] at hch
  exact Option.some.inj hch ▸ hhead

theorem guards_edge {place : Edge} (h : ∀ c : Cursor, c.isAt place = true → c.BeforeMark) :
    Guards (edge place) := by
  intro r r' hmem
  rw [ends] at hmem
  split at hmem
  · rename_i hplace
    exact ⟨h _ hplace, by rw [List.mem_singleton.1 hmem]⟩
  · cases hmem

theorem guards_lineEnd : Guards (edge .lineEnd) := by
  refine guards_edge fun c hplace ch hch => ?_
  have hnewline : c.after.head? = some '\n' := by
    simpa [Cursor.isAt, List.ne_nil_of_mem (List.mem_of_head? hch)] using hplace
  rw [Option.mem_def, hnewline] at hch
  exact Option.some.inj hch ▸ by decide

theorem guards_textEnd : Guards (edge .textEnd) := by
  refine guards_edge fun c hplace ch hch => ?_
  rw [Cursor.isAt, List.isEmpty_iff] at hplace
  rw [hplace] at hch
  cases hch

theorem Guards.alt {a b : Pattern} (ha : Guards a) (hb : Guards b) : Guards (a ||| b) := by
  intro r r' hmem
  rcases List.mem_append.1 hmem with hmem | hmem
  · exact ha r r' hmem
  · exact hb r r' hmem

theorem Guards.ahead {p : Pattern} (hp : Guards p) : Guards (ahead true p) := by
  intro r r' hmem
  rw [ends] at hmem
  split at hmem
  · rename_i found hfound
    obtain ⟨hmark, hcaptures⟩ := hp r found (List.mem_of_head? hfound)
    obtain rfl := List.mem_singleton.1 hmem
    exact ⟨hmark, hcaptures⟩
  · cases hmem

/-! ## The patterns of the registry -/

theorem endsAfterMark_equals : EndsAfterMark equals :=
  EndsAfterMark.star (.seq (endsAfterMark_text (by decide) (by decide))) CharClass.separators_blank

theorem endsAfterMark_equals_ignoringCase {a : Pattern} :
    EndsAfterMark (a ++ equals.ignoringCase) :=
  .seq (.star (.seq (.empty (endsAfterMark_one
    (CharClass.separators_anyCase_ofChar (by decide) (by decide) (by decide)))))
      CharClass.separators_anyCase_blank)

/-- The rest of a line ends with the line. -/
theorem insideWord_of_inLine (h : First inLine r r') : r'.cursor.insideWord = false :=
  Cursor.BeforeMark.insideWord fun c hc =>
    CharClass.isWord_of_not_admits_notNewline (h.stops_plus c hc)

theorem insideWord_of_inLine_ignoringCase (h : First inLine.ignoringCase r r') :
    r'.cursor.insideWord = false :=
  Cursor.BeforeMark.insideWord fun c hc =>
    CharClass.isWord_of_not_admits_anyCase_notNewline (First.stops_plus h c hc)

theorem boundsValue_declaration : BoundsValue declaration := by
  refine boundsValue_of_guards (.seq endsAfterMark_equals) (.ahead (.alt (.alt ?_ ?_) guards_textEnd))
  · exact guards_text (by decide) (by decide)
  · exact guards_text (by decide) (by decide)

theorem boundsValue_lineAssignment : BoundsValue lineAssignment :=
  boundsValue (.seq endsAfterMark_equals) fun _ _ => insideWord_of_inLine

theorem boundsValue_valueDeclaration : BoundsValue valueDeclaration :=
  boundsValue (.seq endsAfterMark_equals) fun _ _ => insideWord_of_inLine

theorem boundsValue_shortDeclaration : BoundsValue shortDeclaration :=
  boundsValue (.star (.seq (endsAfterMark_text (by decide) (by decide))) CharClass.separators_blank)
    fun _ _ => insideWord_of_inLine

theorem boundsValue_shellExport : BoundsValue shellExport :=
  boundsValue (.seq (endsAfterMark_text (by decide) (by decide))) fun _ _ => insideWord_of_inLine

theorem boundsValue_shellAssignment : BoundsValue shellAssignment :=
  boundsValue (.seq (endsAfterMark_text (by decide) (by decide))) fun _ _ => insideWord_of_inLine

theorem boundsValue_statement (introduction : Pattern) : BoundsValue (statement introduction) :=
  boundsValue_of_guards (.seq endsAfterMark_equals) (guards_text (by decide) (by decide))

theorem separators_anyCase_inlineBlank : (CharClass.anyCase inlineBlank).Separators :=
  CharClass.separators_anyCase_ofString (by decide)

theorem endsAfterMark_text_ignoringCase {d : Char} {a : Pattern} (h : Text.isWord d = false)
    (hpos : 0 < d.toNat) (hlow : d.toNat < 0x41) :
    EndsAfterMark (a ++ (one (.ofChar d) ++ empty).ignoringCase) :=
  .seq (.empty (endsAfterMark_one (CharClass.separators_anyCase_ofChar h hpos hlow)))

theorem boundsValue_mappingKey : BoundsValue mappingKey :=
  boundsValue (.star (endsAfterMark_text_ignoringCase (d := ':') (by decide) (by decide) (by decide))
    separators_anyCase_inlineBlank) fun _ _ => insideWord_of_inLine_ignoringCase

theorem boundsValue_tokenKey : BoundsValue tokenKey :=
  boundsValue (.star (endsAfterMark_text_ignoringCase (d := ':') (by decide) (by decide) (by decide))
    CharClass.separators_anyCase_blank) fun _ _ => insideWord_of_inLine_ignoringCase

theorem boundsValue_tokenAssignment : BoundsValue tokenAssignment :=
  boundsValue endsAfterMark_equals_ignoringCase fun _ _ => insideWord_of_inLine_ignoringCase

theorem boundsValue_imageArg : BoundsValue imageArg :=
  boundsValue (endsAfterMark_text_ignoringCase (d := '=') (by decide) (by decide) (by decide))
    fun _ _ => insideWord_of_inLine_ignoringCase

theorem boundsValue_registryToken : BoundsValue registryToken :=
  boundsValue_of_guards endsAfterMark_equals_ignoringCase guards_lineEnd

theorem boundsValue_registryAuth : BoundsValue registryAuth :=
  boundsValue_of_guards endsAfterMark_equals_ignoringCase guards_lineEnd

theorem boundsValue_imageEnv : BoundsValue imageEnv :=
  boundsValue_of_guards (.seq (.alt (endsAfterMark_plus separators_anyCase_inlineBlank)
    (.empty (endsAfterMark_one
      (CharClass.separators_anyCase_ofChar (d := '=') (by decide) (by decide) (by decide))))))
    guards_lineEnd

/-- Behind the rest of a line there is no quote to read but the last one of the line itself. -/
theorem stops_of_quotedInLine
    (h : First (opt (one quoteChar) ++ inLine ++ opt (one quoteChar)) r r') :
    ∀ c ∈ r'.cursor.after.head?, CharClass.notNewline.admits c = false := by
  have hopt := Reads.opt (reads_one quoteChar)
  have htotal : ∀ r, (opt (one quoteChar)).ends r ≠ [] := fun r =>
    List.ne_nil_of_mem ((hopt r r).2 ⟨trivial, [], .inl rfl, _, rfl, r.pass_nil.symm⟩)
  obtain ⟨mid, hmid, hlast⟩ := h.of_seq_of_total htotal
  obtain ⟨_, -, hline⟩ := hmid.of_seq
  have hstop : ∀ c ∈ mid.cursor.after.head?, CharClass.notNewline.admits c = false :=
    hline.stops_plus
  obtain ⟨-, _, rfl | ⟨c, hc, rfl⟩, rest, hafter, rfl⟩ := (hopt mid r').1 hlast.mem
  · rw [List.nil_append] at hafter
    rwa [← hafter, Reading.pass_nil]
  · have hquote := hstop c (by rw [hafter]; rfl)
    rw [CharClass.notNewline, CharClass.admits_complement, CharClass.admits_ofChar,
      Bool.not_eq_false', beq_iff_eq] at hquote
    rw [hquote] at hc
    exact absurd hc (by decide)

theorem insideWord_of_quotedInLine
    (h : First (opt (one quoteChar) ++ inLine ++ opt (one quoteChar)) r r') :
    r'.cursor.insideWord = false :=
  Cursor.BeforeMark.insideWord fun c hc =>
    CharClass.isWord_of_not_admits_notNewline (stops_of_quotedInLine h c hc)

theorem boundsValue_quotedAssignment : BoundsValue quotedAssignment :=
  boundsValue (.seq endsAfterMark_equals) fun _ _ => insideWord_of_quotedInLine

/-- A key is followed by a colon. -/
theorem endsAfterMark_colon {a : Pattern} : EndsAfterMark (a ++ text ":" ++ blanks) :=
  .star (.seq (endsAfterMark_text (by decide) (by decide))) CharClass.separators_blank

theorem endsAfterMark_escapedString {quote : Char} (h : Text.isWord quote = false) :
    EndsAfterMark (escapedString quote) := by
  refine .seq (endsAfterMark_text (s := quote.toString) (by simp [Char.toString]) ?_)
  simpa [Char.toString] using h

theorem boundsValue_objectMember : BoundsValue objectMember := by
  refine boundsValue endsAfterMark_colon fun r r' hfirst => ?_
  rcases hfirst.of_alt with hstring | hplain
  · have hquotes : EndsAfterMark (escapedString '"' ||| escapedString '\'') :=
      .alt (endsAfterMark_escapedString (by decide)) (endsAfterMark_escapedString (by decide))
    exact (hquotes r r' hstring.mem).insideWord
  · refine Cursor.BeforeMark.insideWord fun c hc => ?_
    have hstop := hplain.stops_plus c hc
    rw [CharClass.admits_complement, Bool.not_eq_false'] at hstop
    exact CharClass.separators_ofString (by decide) c hstop

/-- Every pattern of the registry but that of properties reads whole values. -/
theorem boundsValue_of_mem : ∀ language ∈ registry, ∀ p ∈ language.candidates,
    p = property ∨ BoundsValue p := by
  simp [registry, boundsValue_declaration, boundsValue_quotedAssignment, boundsValue_lineAssignment,
    boundsValue_shellExport, boundsValue_shellAssignment, boundsValue_objectMember,
    boundsValue_mappingKey, boundsValue_statement, boundsValue_valueDeclaration,
    boundsValue_shortDeclaration, boundsValue_imageEnv, boundsValue_imageArg,
    boundsValue_registryToken, boundsValue_registryAuth, boundsValue_tokenKey,
    boundsValue_tokenAssignment]

/-- All patterns of the registry read something. -/
theorem least_pos : ∀ language ∈ registry, ∀ p ∈ language.candidates, 0 < p.ownWidth.least := by
  decide

/-- The value of a match is not cut out of the middle of a word, if the match of a property is not. -/
theorem exists_wholeValue {language : Language} {p : Pattern} {text : List Char} {m : Match}
    (hlanguage : language ∈ registry) (hp : p ∈ language.candidates) (hm : m ∈ p.allMatches text)
    (hproperty : p = property → m.reading.cursor.insideWord = false) :
    ∃ capture c, m.reading.EndsValue capture c ∧ c.insideWord = false := by
  have hfirst := first_of_mem_allMatches (least_pos language hlanguage p hp) hm
  rcases boundsValue_of_mem language hlanguage p hp with rfl | hbounds
  · obtain ⟨capture, hvalue⟩ := exists_endsValue endsAfterMark_colon hfirst.mem
    exact ⟨capture, _, hvalue, hproperty rfl⟩
  · exact hbounds _ _ hfirst

end Language

end EnvAudit
