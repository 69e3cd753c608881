import EnvAudit.Proofs.Language.Bounded
import EnvAudit.Proofs.Pattern.Names

/-!
# Names end where words end

The name that a candidate pattern reads ends in front of a mark.  Most patterns read it behind a mark
as well, or as far to the left as the word goes.  The others can cut off the beginning of a word: in
front of capitals, behind a digit, behind the value of another property, or in front of the key of a
token.
-/

namespace EnvAudit.Language

open Pattern

variable {p : Pattern} {text : List Char} {m : Match} {ch : Char}

/-! ## The patterns of the registry -/

theorem beginsAtMark_text {d : Char} {p : Pattern} (h : Text.isWord d = false) :
    BeginsAtMark (one (.ofChar d) ++ p) :=
  .seq (beginsAtMark_one (CharClass.separators_ofChar h))

theorem beginsAtMark_text_ignoringCase {d : Char} {p : Pattern} (h : Text.isWord d = false)
    (hpos : 0 < d.toNat) (hlow : d.toNat < 0x41) :
    BeginsAtMark (one (CharClass.anyCase (.ofChar d)) ++ p) :=
  .seq (beginsAtMark_one (CharClass.separators_anyCase_ofChar h hpos hlow))

theorem beginsAtMark_equals : BeginsAtMark equals :=
  .seq (.star CharClass.separators_blank (beginsAtMark_text (d := '=') (by decide)))

theorem beginsAtMark_equals_ignoringCase : BeginsAtMark equals.ignoringCase :=
  .seq (.star CharClass.separators_anyCase_blank
    (beginsAtMark_text_ignoringCase (d := '=') (by decide) (by decide) (by decide)))

theorem endsAfterMark_blanks1 : EndsAfterMark (a ++ blanks1) :=
  .seq (endsAfterMark_plus CharClass.separators_blank)

theorem endsAfterMark_blanks1_ignoringCase : EndsAfterMark (a ++ blanks1.ignoringCase) :=
  .seq (endsAfterMark_plus CharClass.separators_anyCase_blank)

theorem endsAfterMark_lineStart : EndsAfterMark (edge .lineStart) := by
  intro r r' hmem ch hch
  obtain ⟨hplace, _, rfl, rest, hafter, rfl⟩ := (reads_edge .lineStart r r').1 hmem
  have hnewline : r.cursor.before.head? = some '\n' := by
    have hne : r.cursor.before ≠ [] := List.ne_nil_of_mem (List.mem_of_head? hch)
    simpa [Cursor.isAt, hne] using hplace
  have hch : r.cursor.before.head? = some ch := hch
  rw [hnewline] at hch
  exact Option.some.inj hch ▸ by decide

theorem names_declaration : Names BehindMark declaration :=
  ((names_behind endsAfterMark_blanks1 beginsAtMark_equals rfl).seq rfl).seq rfl

theorem names_shellExport : Names BehindMark shellExport :=
  (names_behind endsAfterMark_blanks1 (beginsAtMark_text (by decide)) rfl).seq rfl

theorem names_objectMember : Names BehindMark objectMember := by
  have hquotes : (CharClass.ofString "\"'").Separators := CharClass.separators_ofString (by decide)
  exact ((((names_behind (endsAfterMark_one hquotes) (beginsAtMark_one hquotes) rfl).seq rfl).seq
    rfl).seq rfl).seq rfl

theorem names_statement {introduction : Pattern} (h : EndsAfterMark introduction) :
    Names BehindMark (statement introduction) :=
  ((names_behind h beginsAtMark_equals rfl).seq rfl).seq rfl

theorem names_valueDeclaration : Names BehindMark valueDeclaration :=
  (names_behind endsAfterMark_blanks1 beginsAtMark_equals rfl).seq rfl

theorem names_imageEnv : Names BehindMark imageEnv := by
  refine ((names_behind endsAfterMark_blanks1_ignoringCase (.alt ?_ ?_) rfl).seq rfl).seq rfl
  · exact beginsAtMark_plus separators_anyCase_inlineBlank
  · exact beginsAtMark_text_ignoringCase (by decide) (by decide) (by decide)

theorem names_imageArg : Names BehindMark imageArg :=
  (names_behind endsAfterMark_blanks1_ignoringCase
    (beginsAtMark_text_ignoringCase (d := '=') (by decide) (by decide) (by decide)) rfl).seq rfl

theorem names_registryToken : Names BehindMark registryToken :=
  ((names_behind (endsAfterMark_text_ignoringCase (d := ':') (by decide) (by decide) (by decide))
    beginsAtMark_equals_ignoringCase rfl).seq rfl).seq rfl

theorem names_registryAuth : Names BehindMark registryAuth :=
  ((names_behind (.star endsAfterMark_lineStart CharClass.separators_anyCase_blank)
    beginsAtMark_equals_ignoringCase rfl).seq rfl).seq rfl

/-! ## Names at the start of a match -/

theorem names_property : Names Eq property :=
  (((Names.assoc (names_first (.star CharClass.separators_blank (beginsAtMark_text (by decide)))
    rfl)).seq rfl).seq rfl)

theorem names_quotedAssignment : Names Eq quotedAssignment :=
  (names_first beginsAtMark_equals rfl).seq rfl

theorem names_lineAssignment : Names Eq lineAssignment :=
  (names_first beginsAtMark_equals rfl).seq rfl

theorem names_shellAssignment : Names Eq shellAssignment :=
  (names_first (beginsAtMark_text (by decide)) rfl).seq rfl

theorem names_mappingKey : Names Eq mappingKey :=
  ((names_first (beginsAtMark_text_ignoringCase (d := ':') (by decide) (by decide) (by decide))
    rfl).seq rfl).seq rfl

theorem names_shortDeclaration : Names Eq shortDeclaration :=
  ((Names.assoc (names_first (.star CharClass.separators_blank (beginsAtMark_text (d := ':')
    (by decide))) rfl)).seq rfl).seq rfl

theorem names_tokenKey : Names Eq tokenKey :=
  ((names_first (beginsAtMark_text_ignoringCase (d := ':') (by decide) (by decide) (by decide))
    rfl).seq rfl).seq rfl

theorem names_tokenAssignment : Names Eq tokenAssignment :=
  (names_first beginsAtMark_equals_ignoringCase rfl).seq rfl

theorem admits_upperChar (c : Char) :
    upperChar.admits c = (c.isUpper || c.isDigit || c == '_') := Usage.isCapital_eq c

theorem admits_nameStart (c : Char) :
    nameStart.admits c = (c.isUpper || c.isLower || c == '_') := by
  rw [nameStart, CharClass.admits_ofRanges]
  simp only [List.any_cons, List.any_nil, Bool.or_false, CharClass.between_upper,
    CharClass.between_lower, CharClass.le_and_le_self, Bool.or_assoc]

theorem admits_nameChar (c : Char) : nameChar.admits c = Text.isAsciiWord c := by
  rw [nameChar, CharClass.admits_ofRanges]
  simp only [List.any_cons, List.any_nil, Bool.or_false, CharClass.between_upper,
    CharClass.between_lower, CharClass.between_digit, CharClass.le_and_le_self, Bool.or_assoc,
    Text.isAsciiWord_eq]

theorem admits_anyCase_upperChar_of_lt : ∀ code < 0x80, Text.isAsciiWord (Char.ofNat code) = true →
    (CharClass.anyCase upperChar).admits (Char.ofNat code) = true := by
  decide

theorem admits_anyCase_upperChar {c : Char} (h : Text.isAsciiWord c = true) :
    (CharClass.anyCase upperChar).admits c = true := by
  have hlt := Text.toNat_lt_of_isAsciiWord h
  rw [← Char.ofNat_toNat c] at h ⊢
  exact admits_anyCase_upperChar_of_lt c.toNat hlt h

theorem admits_notNewline {k : CharClass} (h : k.admits '\n' = false) (c : Char)
    (hc : k.admits c = true) : CharClass.notNewline.admits c = true := by
  rw [CharClass.notNewline, CharClass.admits_complement, CharClass.admits_ofChar, Bool.not_eq_true',
    beq_eq_false_iff_ne]
  rintro rfl
  rw [h] at hc
  cases hc

theorem admits_anyCase_notNewline {k : CharClass} (h : k.admits '\n' = false) (c : Char)
    (hc : k.admits c = true) : (CharClass.anyCase CharClass.notNewline).admits c = true := by
  by_contra hnot
  rw [Bool.not_eq_true] at hnot
  rw [CharClass.eq_newline_of_not_admits_anyCase hnot, h] at hc
  cases hc

theorem endsLine_inLine (a : Pattern) : EndsLine .notNewline (a ++ valued inLine) :=
  .seq (.group (endsLine_plus _) 2)

theorem endsLine_inLine_ignoringCase (a : Pattern) :
    EndsLine (CharClass.anyCase .notNewline) (a ++ valued inLine.ignoringCase) :=
  .seq (.group (endsLine_plus _) 2)

/-- Where the name of a match can begin in the middle of a word, by what stands in front of it. -/
inductive CutsFront (text : List Char) : Pattern → List Char → Prop
  /-- Capitals behind a small letter. -/
  | small (before : List Char) {c : Char} (h : c.isLower = true) :
    CutsFront text shellAssignment (before ++ [c])
  /-- A name behind a digit. -/
  | digit {p : Pattern} (hp : p = property ∨ p = quotedAssignment ∨ p = lineAssignment)
      (before : List Char) {c : Char} (h : c.isDigit = true) : CutsFront text p (before ++ [c])
  /-- The name of a property behind the value of another one. -/
  | value {m : Match} (hm : m ∈ property.allMatches text) :
    CutsFront text property m.reading.cursor.before.reverse
  /-- A key that is looked for anywhere in a line. -/
  | key {p : Pattern} (hp : p = tokenKey ∨ p = tokenAssignment) (front : List Char) :
    CutsFront text p front

/-- The name of a match begins where a word begins, or it is cut off in one of the known ways. -/
def NamesWhole (p : Pattern) : Prop :=
  ∀ text, ∀ m ∈ p.allMatches text, ∃ capture, m.reading.EndsName
    (fun c => Text.WholeFront c.before.reverse ∨ CutsFront text p c.before.reverse) capture

theorem namesWhole_of_behind (hp : 0 < p.ownWidth.least) (h : Names BehindMark p) : NamesWhole p := by
  intro text m hm
  obtain ⟨capture, hname⟩ := h _ _ (first_of_mem_allMatches hp hm).mem
  have hmark : capture.start.AfterMark := hname.start
  exact ⟨capture, hname.mono (.inl hmark.wholeFront)⟩

/-- It is enough to look at the word character in front of a match that begins with its name. -/
theorem namesWhole_of_first (hp : 0 < p.ownWidth.least) (h : Names Eq p)
    (hcut : ∀ text, ∀ m ∈ p.allMatches text, ∀ c before, m.start.before = c :: before →
      Text.isAsciiWord c = true → CutsFront text p (before.reverse ++ [c])) : NamesWhole p := by
  intro text m hm
  obtain ⟨capture, hname⟩ := h _ _ (first_of_mem_allMatches hp hm).mem
  have hstart : m.start = capture.start := hname.start
  refine ⟨capture, hname.mono ?_⟩
  rw [← hstart]
  cases hbefore : m.start.before with
  | nil => exact .inl (by simp [Text.WholeFront])
  | cons c before =>
      rw [List.reverse_cons]
      by_cases hword : Text.isAsciiWord c = true
      · exact .inr (hcut text m hm c before hbefore hword)
      · rw [Bool.not_eq_true] at hword
        refine .inl fun d hd => ?_
        rw [List.getLast?_concat] at hd
        exact Option.some.inj hd ▸ hword

/-- It is enough to look at the word characters that cannot begin a name, if the pattern takes in all
others and reads to the end of the line. -/
theorem namesWhole_of_line {k line : CharClass} (hp : 0 < p.ownWidth.least) (h : Names Eq p)
    (hstarts : StartsIn k p) (hends : EndsLine line p)
    (hline : ∀ c, k.admits c = true → line.admits c = true)
    (habsorbs : ∀ c, k.admits c = true → Absorbs p c)
    (hcut : ∀ text c before, Text.isAsciiWord c = true → k.admits c = false →
      CutsFront text p (before ++ [c])) : NamesWhole p := by
  refine namesWhole_of_first hp h fun text m hm c before hbefore hword => ?_
  have hnot := not_absorbs_of_endsLine hp hstarts hends hline hm (by rw [hbefore]; rfl)
  exact hcut text c _ hword (eq_false_of_ne_true fun hadmits => hnot (habsorbs c hadmits))

theorem isLower_of_not_upperChar {c : Char} (hword : Text.isAsciiWord c = true)
    (h : upperChar.admits c = false) : c.isLower = true := by
  rw [admits_upperChar] at h
  rw [Text.isAsciiWord_eq] at hword
  revert h hword
  cases c.isUpper <;> cases c.isDigit <;> cases c.isLower <;> simp

theorem isDigit_of_not_nameStart {c : Char} (hword : Text.isAsciiWord c = true)
    (h : nameStart.admits c = false) : c.isDigit = true := by
  rw [admits_nameStart] at h
  rw [Text.isAsciiWord_eq] at hword
  revert h hword
  cases c.isUpper <;> cases c.isDigit <;> cases c.isLower <;> simp

theorem nameChar_of_nameStart (c : Char) (h : nameStart.admits c = true) :
    nameChar.admits c = true := by
  rw [admits_nameStart] at h
  rw [admits_nameChar, Text.isAsciiWord_eq]
  revert h
  cases c.isUpper <;> cases c.isDigit <;> cases c.isLower <;> simp

theorem namesWhole_shellAssignment : NamesWhole shellAssignment :=
  namesWhole_of_line (by decide) names_shellAssignment
    (.seq (.seq (.group (startsIn_plus upperChar) 1))) (endsLine_inLine _)
    (admits_notNewline (by decide)) (fun _ hc => (((absorbs_plus hc).group 1).seq rfl).seq rfl)
    fun _ _ before hword hc => .small before (isLower_of_not_upperChar hword hc)

theorem namesWhole_mappingKey : NamesWhole mappingKey :=
  namesWhole_of_line (by decide) names_mappingKey
    (.seq (.seq (.seq (.group (startsIn_plus (CharClass.anyCase upperChar)) 1))))
    (endsLine_inLine_ignoringCase _) (admits_anyCase_notNewline (by decide))
    (fun _ hc => ((((absorbs_plus hc).group 1).seq rfl).seq rfl).seq rfl)
    fun _ c _ hword hc => absurd (admits_anyCase_upperChar hword) (by simp [hc])

theorem namesWhole_shortDeclaration : NamesWhole shortDeclaration :=
  namesWhole_of_line (by decide) names_shortDeclaration
    (.seq (.seq (.seq (.seq (.group (startsIn_plus nameChar) 1))))) (endsLine_inLine _)
    (admits_notNewline (by decide))
    (fun _ hc => (((((absorbs_plus hc).group 1).seq rfl).seq rfl).seq rfl).seq rfl)
    fun _ c _ hword hc => absurd hword (by simp [← admits_nameChar, hc])

theorem startsIn_plainName : StartsIn nameStart plainName :=
  .group (.seq (startsIn_one nameStart)) 1

theorem absorbs_plainName {c : Char} (h : nameStart.admits c = true) : Absorbs plainName c :=
  (absorbs_one_star h nameChar_of_nameStart).group 1

theorem namesWhole_lineAssignment : NamesWhole lineAssignment :=
  namesWhole_of_line (by decide) names_lineAssignment (.seq (.seq startsIn_plainName))
    (endsLine_inLine _) (admits_notNewline (by decide))
    (fun _ hc => ((absorbs_plainName hc).seq rfl).seq rfl)
    fun _ _ before hword hc => .digit (.inr (.inr rfl)) before (isDigit_of_not_nameStart hword hc)

theorem namesWhole_quotedAssignment : NamesWhole quotedAssignment :=
  namesWhole_of_line (by decide) names_quotedAssignment (.seq (.seq startsIn_plainName))
    (.seq (.group (fun _ _ => stops_of_quotedInLine) 2)) (admits_notNewline (by decide))
    (fun _ hc => ((absorbs_plainName hc).seq rfl).seq rfl)
    fun _ _ before hword hc => .digit (.inr (.inl rfl)) before (isDigit_of_not_nameStart hword hc)

theorem namesWhole_property : NamesWhole property := by
  refine namesWhole_of_first (by decide) names_property fun text m hm c before hbefore hword => ?_
  by_cases hc : (nameStart.union dollar).admits c = true
  · have habsorbs : Absorbs property c := by
      refine (((((absorbs_one_star hc fun d hd => ?_).group 1).seq rfl).seq rfl).seq rfl).seq rfl
      rw [CharClass.admits_union nameStart dollar rfl rfl rfl, Bool.or_eq_true] at hd
      rw [CharClass.admits_union nameChar dollar rfl rfl rfl, Bool.or_eq_true]
      exact hd.imp (nameChar_of_nameStart d) id
    obtain ⟨earlier, hearlier, hplace⟩ :=
      exists_match_ends_at_start (by decide) hm (by rw [hbefore]; rfl) habsorbs
    have hcuts := CutsFront.value hearlier
    rwa [hplace, hbefore, List.reverse_cons] at hcuts
  · rw [CharClass.admits_union nameStart dollar rfl rfl rfl, Bool.or_eq_true, not_or,
      Bool.not_eq_true] at hc
    exact .digit (.inl rfl) _ (isDigit_of_not_nameStart hword hc.1)

theorem namesWhole_tokenKey : NamesWhole tokenKey :=
  namesWhole_of_first (by decide) names_tokenKey fun _ _ _ _ _ _ _ => .key (.inl rfl) _

theorem namesWhole_tokenAssignment : NamesWhole tokenAssignment :=
  namesWhole_of_first (by decide) names_tokenAssignment fun _ _ _ _ _ _ _ => .key (.inr rfl) _

theorem names_or_namesWhole : ∀ language ∈ registry, ∀ p ∈ language.candidates,
    Names BehindMark p ∨ NamesWhole p := by
  have hdollar : EndsAfterMark (Pattern.text "$") := endsAfterMark_text (by decide) (by decide)
  simp [registry, names_declaration, names_shellExport, names_objectMember, names_statement,
    names_valueDeclaration, names_imageEnv, names_imageArg, names_registryToken, names_registryAuth,
    namesWhole_property, namesWhole_quotedAssignment, namesWhole_lineAssignment,
    namesWhole_shellAssignment, namesWhole_mappingKey, namesWhole_shortDeclaration,
    namesWhole_tokenKey, namesWhole_tokenAssignment, hdollar, endsAfterMark_blanks1]

/-- The patterns of the registry cut off names in the known ways only. -/
theorem namesWhole_of_mem {language : Language} (hlanguage : language ∈ registry)
    (hp : p ∈ language.candidates) : NamesWhole p := by
  rcases names_or_namesWhole language hlanguage p hp with hnames | hwhole
  · exact namesWhole_of_behind (least_pos language hlanguage p hp) hnames
  · exact hwhole

end EnvAudit.Language
