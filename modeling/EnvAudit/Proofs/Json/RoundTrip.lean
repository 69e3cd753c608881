import EnvAudit.Proofs.Json.Reader
import Mathlib.Data.List.Forall2
import Mathlib.Data.Nat.Digits.Defs

/-!
# Documents that are read back

What is written of a document is read back as this document, in either layout and whatever follows it, as
long as that does not go on with a number.  A text is therefore one document exactly if nothing but blanks
follows what was written.
-/

namespace EnvAudit

namespace Text

theorem hexValue?_hexDigit : ∀ value < 16, hexValue? (hexDigit value) = some value := by
  decide

theorem isHexDigit_of_mem_hexDigits {width number : Nat} {c : Char} (h : c ∈ hexDigits width number) :
    isHexDigit c = true := by
  induction width generalizing number with
  | zero => cases h
  | succ width ih =>
      rcases List.mem_append.1 h with h | h
      · exact ih h
      · rw [List.mem_singleton.1 h, isHexDigit, hexValue?_hexDigit _ (Nat.mod_lt _ (by decide))]
        rfl

theorem numberOfDigits_hexDigits (width number : Nat) :
    numberOfDigits 16 (hexDigits width number) = number % 16 ^ width := by
  induction width generalizing number with
  | zero => rw [Nat.pow_zero, Nat.mod_one]; rfl
  | succ width ih =>
      have hlast := hexValue?_hexDigit (number % 16) (Nat.mod_lt _ (by decide))
      rw [hexDigits, numberOfDigits, List.foldl_append, ← numberOfDigits, ih]
      rw [List.foldl_cons, List.foldl_nil, hlast, Option.getD_some, Nat.pow_succ']
      rw [Nat.mod_mul, Nat.mul_comm, Nat.add_comm]

end Text

namespace Json

variable {rest blanks : List Char} {layout : Layout} {level : Nat}

/-! ## Strings -/

theorem readUnits?_escapeUnit {unit : Nat} (h : unit < 0x10000) (rest : List Char) :
    readUnits? (escapeUnit unit ++ rest) =
      (readUnits? rest).map fun (units, rest) => (unit :: units, rest) := by
  have hdigits : ∃ a b c d, Text.hexDigits 4 unit = [a, b, c, d] := ⟨_, _, _, _, rfl⟩
  obtain ⟨a, b, c, d, hdigits⟩ := hdigits
  have hall : [a, b, c, d].all Text.isHexDigit = true := by
    rw [← hdigits, List.all_eq_true]
    exact fun _ => Text.isHexDigit_of_mem_hexDigits
  have hnumber : Text.numberOfDigits 16 [a, b, c, d] = unit := by
    rw [← hdigits, Text.numberOfDigits_hexDigits]
    exact Nat.mod_eq_of_lt h
  rw [escapeUnit, hdigits]
  simp only [List.cons_append, List.nil_append, readUnits?]
  rw [if_pos hall, hnumber]

theorem readUnits?_encodeChar (c : Char) (rest : List Char) :
    readUnits? (encodeChar c ++ rest) =
      (readUnits? rest).map fun (units, rest) => (unitsOf c ++ units, rest) := by
  unfold encodeChar
  split
  -- The characters that have an escape of their own.
  any_goals
    rw [List.cons_append, List.cons_append, List.nil_append, readUnits?]
    · rfl
    · simp
  rename_i hquote hslash _ _ _ _ _
  split
  · rename_i hprintable
    have hnot : ¬ (c = '\\' ∨ c.toNat < 0x20) := fun h => h.elim hslash (Nat.not_lt.2 hprintable.1)
    rw [List.cons_append, List.nil_append, readUnits?]
    · rw [if_neg hnot]
    · exact hquote
    · exact fun _ _ _ _ _ heq _ => hslash heq
    · exact fun _ _ heq _ => hslash heq
  · split
    · rename_i hsmall
      rw [readUnits?_escapeUnit hsmall, unitsOf, if_pos hsmall]
      rfl
    · rename_i hlarge
      have hvalid : c.toNat < 0xd800 ∨ 0xdfff < c.toNat ∧ c.toNat < 0x110000 := c.valid
      have hhigh : (c.toNat - 0x10000) / 0x400 < 0x400 := by omega
      have hlow : (c.toNat - 0x10000) % 0x400 < 0x400 := Nat.mod_lt _ (by decide)
      rw [List.append_assoc, readUnits?_escapeUnit (by omega), readUnits?_escapeUnit (by omega), unitsOf,
        if_neg hlarge, Option.map_map]
      rfl

theorem readUnits?_encodeString (s rest : List Char) :
    readUnits? (s.flatMap encodeChar ++ '"' :: rest) = some (s.flatMap unitsOf, rest) := by
  induction s with
  | nil => rfl
  | cons c s ih =>
      rw [List.flatMap_cons, List.append_assoc, readUnits?_encodeChar, ih, List.flatMap_cons]
      rfl

theorem ofUnits?_unitsOf_append (c : Char) (units : List Nat) :
    ofUnits? (unitsOf c ++ units) = (ofUnits? units).map (c :: ·) := by
  have hvalid : c.toNat < 0xd800 ∨ 0xdfff < c.toNat ∧ c.toNat < 0x110000 := c.valid
  rw [unitsOf]
  split
  · have hunit : c.toNat < 0xd800 ∨ 0xdfff < c.toNat := hvalid.imp id And.left
    conv_lhs => rw [List.cons_append, List.nil_append, ofUnits?.eq_def]
    simp only [if_pos hunit, Char.ofNat_toNat]
  · rename_i hlarge
    have hpair : 0x10000 + (0xd800 + (c.toNat - 0x10000) / 0x400 - 0xd800) * 0x400 +
        (0xdc00 + (c.toNat - 0x10000) % 0x400 - 0xdc00) = c.toNat := by omega
    rw [List.cons_append, List.cons_append, List.nil_append, ofUnits?, if_neg (by omega), if_pos (by omega),
      hpair, Char.ofNat_toNat]

theorem ofUnits?_flatMap_unitsOf (s : List Char) : ofUnits? (s.flatMap unitsOf) = some s := by
  induction s with
  | nil => rfl
  | cons c s ih => rw [List.flatMap_cons, ofUnits?_unitsOf_append, ih, Option.map_some]

/-- A string is read back behind its opening quotation mark. -/
theorem readString?_encodeString (s : String) (rest : List Char) :
    ∃ text, (encodeString s).toList = '"' :: text ∧ readString? (text ++ rest) = some (s, rest) := by
  refine ⟨s.toList.flatMap encodeChar ++ ['"'], String.toList_ofList, ?_⟩
  rw [readString?, List.append_assoc, List.singleton_append, readUnits?_encodeString]
  simp only [ofUnits?_flatMap_unitsOf, Option.map_some, String.ofList_toList]

/-! ## Numbers -/

/-- What follows a number does not go on with it. -/
def Ends (rest : List Char) : Prop := ∀ c ∈ rest.head?, extendsNumber c = false

theorem readNat?_toDigits (number : Nat) (hrest : Ends rest) :
    readNat? (Nat.toDigits 10 number ++ rest) = some (number, rest) := by
  have hdigits : ∀ c ∈ Nat.toDigits 10 number, c.isDigit = true := fun _ =>
    Nat.isDigit_of_mem_toDigits (by decide) (by decide)
  have hstop : rest.takeWhile Char.isDigit = [] ∧ rest.dropWhile Char.isDigit = rest := by
    cases rest with
    | nil => exact ⟨rfl, rfl⟩
    | cons c rest =>
        have hc := hrest c rfl
        simp only [extendsNumber, Bool.or_eq_false_iff] at hc
        rw [List.takeWhile_cons_of_neg (by simp [hc]), List.dropWhile_cons_of_neg (by simp [hc])]
        exact ⟨rfl, rfl⟩
  have hany : rest.head?.any extendsNumber = false := by
    cases rest with
    | nil => rfl
    | cons c rest => exact hrest c rfl
  rw [readNat?, List.takeWhile_append_of_pos hdigits, List.dropWhile_append_of_pos hdigits, hstop.1, hstop.2,
    List.append_nil, hany, if_neg Bool.false_ne_true, ofNumeral?, Nat.ofDigitChars_ten_toDigits, if_pos rfl,
    Option.map_some]

/-- A numeral begins with a digit, or with a minus sign. -/
theorem exists_toList_toString (number : Int) :
    ∃ c digits, (toString number).toList = c :: digits ∧ (c.isDigit = true ∨ c = '-') := by
  have hdigit : ∀ number : Nat, ∃ c digits, (toString number).toList = c :: digits ∧ c.isDigit = true := by
    intro number
    have hmem := fun c => Nat.isDigit_of_mem_toDigits (b := 10) (n := number) (c := c) (by decide) (by decide)
    obtain ⟨c, digits, htext⟩ := List.exists_cons_of_ne_nil (Nat.toDigits_ne_nil (n := number) (b := 10))
    exact ⟨c, digits, Nat.toList_repr.trans htext, hmem c (by simp [htext])⟩
  cases number with
  | ofNat number =>
      obtain ⟨c, digits, htext, hc⟩ := hdigit number
      exact ⟨c, digits, htext, .inl hc⟩
  | negSucc number => exact ⟨'-', _, String.toList_append, .inr rfl⟩

theorem readInt?_toString (number : Int) (hrest : Ends rest) :
    readInt? ((toString number).toList ++ rest) = some (number, rest) := by
  cases number with
  | ofNat number =>
      have htext : (toString (Int.ofNat number)).toList = Nat.toDigits 10 number := Nat.toList_repr
      rw [htext, readInt?]
      · rw [readNat?_toDigits number hrest]
        rfl
      · intro text heq
        obtain ⟨c, digits, hdigits⟩ := List.exists_cons_of_ne_nil (Nat.toDigits_ne_nil (n := number) (b := 10))
        rw [hdigits] at heq
        have hc : c.isDigit = true := by
          apply Nat.isDigit_of_mem_toDigits (b := 10) (n := number) (by decide) (by decide)
          simp [hdigits]
        rw [(List.cons.inj heq).1] at hc
        cases hc
  | negSucc number =>
      have htext : (toString (Int.negSucc number)).toList = '-' :: Nat.toDigits 10 (number + 1) := by
        change ("-" ++ toString (number + 1)).toList = _
        rw [String.toList_append, Nat.toString_eq_repr, Nat.toList_repr]
        rfl
      rw [htext, List.cons_append, readInt?, readNat?_toDigits _ hrest]
      rfl

/-! ## Members -/

theorem skipBlanks_append (hblanks : ∀ c ∈ blanks, isBlank c = true) (text : List Char) :
    skipBlanks (blanks ++ text) = skipBlanks text :=
  List.dropWhile_append_of_pos hblanks

theorem skipBlanks_cons {c : Char} (hc : isBlank c = false) (text : List Char) :
    skipBlanks (c :: text) = c :: text :=
  List.dropWhile_cons_of_neg (by simp [hc])

theorem isBlank_of_mem_break {c : Char} (h : c ∈ (layout.break level).toList) : isBlank c = true := by
  cases layout with
  | oneLine => simp [Layout.break] at h
  | indented =>
      rw [Layout.break, String.toList_append] at h
      rcases List.mem_append.1 h with h | h
      · rw [List.mem_singleton.1 h]
        rfl
      · rw [String.toList_ofList] at h
        rw [List.eq_of_mem_replicate h]
        rfl

/-- A comma with blanks behind it. -/
theorem exists_toList_comma (layout : Layout) (level : Nat) :
    ∃ gap, (layout.comma level).toList = ',' :: gap ∧ ∀ c ∈ gap, isBlank c = true := by
  cases layout with
  | oneLine => exact ⟨[' '], by simp [Layout.comma], by simp [isBlank]⟩
  | indented =>
      refine ⟨((Layout.indented).break level).toList, ?_, fun _ => isBlank_of_mem_break⟩
      rw [Layout.comma, String.toList_append]
      rfl

theorem ends_of_isBlank (hblanks : ∀ c ∈ blanks, isBlank c = true) (hrest : Ends rest) :
    Ends (blanks ++ rest) := by
  cases blanks with
  | nil => exact hrest
  | cons b blanks =>
      rintro c hc
      obtain rfl := Option.some.inj hc
      have hb := hblanks b List.mem_cons_self
      simp only [isBlank, Bool.or_eq_true, beq_iff_eq] at hb
      rcases hb with ((rfl | rfl) | rfl) | rfl <;> rfl

section Members

variable {α : Type} {member? : List Char → Option (α × List Char)} {closing : Char}

/-- A text is read as a value, with blanks in front of it and whatever does not extend a number behind. -/
structure ReadAs (member? : List Char → Option (α × List Char)) (closing : Char) (text : List Char)
    (value : α) : Prop where
  begins : ∃ c more, text = c :: more ∧ isBlank c = false ∧ c ≠ closing
  read : ∀ blanks rest, (∀ c ∈ blanks, isBlank c = true) → Ends rest →
    member? (blanks ++ (text ++ rest)) = some (value, rest)

/-- A character that closes a sequence. -/
structure IsClosing (c : Char) : Prop where
  notBlank : isBlank c = false
  notComma : c ≠ ','
  ends : extendsNumber c = false

theorem readMembers?_intercalate (hclosing : IsClosing closing) {gap tail : List Char}
    (hgap : ∀ c ∈ gap, isBlank c = true) (htail : ∀ c ∈ tail, isBlank c = true)
    {members : List (List Char)} {values : List α} (hne : members ≠ [])
    (h : List.Forall₂ (ReadAs member? closing) members values) {fuel : Nat} {blanks : List Char}
    (hblanks : ∀ c ∈ blanks, isBlank c = true)
    (hfuel : (blanks ++ ((',' :: gap).intercalate members ++ (tail ++ closing :: rest))).length ≤ fuel) :
    readMembers? closing member? fuel
        (blanks ++ ((',' :: gap).intercalate members ++ (tail ++ closing :: rest))) =
      some (values, rest) := by
  have hstop : Ends (closing :: rest) := fun c hc => Option.some.inj hc ▸ hclosing.ends
  induction h generalizing fuel blanks with
  | nil => exact absurd rfl hne
  | @cons member value members values hmember hmembers ih =>
      obtain _ | fuel := fuel
      · simp at hfuel
      cases hmembers with
      | nil =>
          rw [List.intercalate_singleton, readMembers?,
            hmember.read blanks _ hblanks (ends_of_isBlank htail hstop)]
          simp only
          rw [skipBlanks_append htail, skipBlanks_cons hclosing.notBlank]
          split
          · rename_i heq
            cases heq
          · rename_i heq
            exact absurd (List.cons.inj heq).1 hclosing.notComma
          · rename_i heq
            obtain ⟨rfl, rfl⟩ := List.cons.inj heq
            rw [if_pos rfl]
      | @cons next _ members values =>
          rw [List.intercalate_cons_of_ne_nil (List.cons_ne_nil _ _)] at hfuel ⊢
          simp only [List.append_assoc] at hfuel ⊢
          have hends : Ends (',' :: gap ++ ((',' :: gap).intercalate (next :: members) ++
              (tail ++ closing :: rest))) := fun c hc => Option.some.inj hc ▸ rfl
          rw [readMembers?, hmember.read blanks _ hblanks hends]
          simp only [List.cons_append]
          rw [skipBlanks_cons rfl]
          simp only
          rw [ih (List.cons_ne_nil _ _) hgap]
          · rfl
          · simp only [List.length_append, List.length_cons] at hfuel ⊢
            omega

/-- A sequence is read back behind its opening bracket. -/
theorem readSequence?_sequence (layout : Layout) (level : Nat) (opening last : String)
    (hclosing : IsClosing closing) (hlast : last.toList = [closing]) {members : List String} {values : List α}
    (h : List.Forall₂ (ReadAs member? closing) (members.map String.toList) values) (rest : List Char) :
    ∃ text, (sequence layout level opening last members).toList = opening.toList ++ text ∧
      readSequence? closing member? (text ++ rest) = some (values, rest) := by
  cases members with
  | nil =>
      cases h
      refine ⟨[closing], by rw [sequence, String.toList_append, hlast], ?_⟩
      rw [readSequence?, List.singleton_append, skipBlanks_cons hclosing.notBlank]
      simp only [if_pos]
  | cons member members =>
      obtain ⟨gap, hcomma, hgap⟩ := exists_toList_comma layout (level + 1)
      obtain ⟨c, more, hbegins, hc, hne⟩ : ∃ c more, ((',' :: gap).intercalate
          ((member :: members).map String.toList)) = c :: more ∧ isBlank c = false ∧ c ≠ closing := by
        cases h with
        | cons hmember _ =>
            obtain ⟨c, more, htext, hc, hne⟩ := hmember.begins
            cases members with
            | nil => exact ⟨c, more, by simp [htext], hc, hne⟩
            | cons => exact ⟨c, _, by simp [htext]; rfl, hc, hne⟩
      refine ⟨(layout.break (level + 1)).toList ++ ((',' :: gap).intercalate
        ((member :: members).map String.toList) ++ ((layout.break level).toList ++ [closing])), ?_, ?_⟩
      · simp only [sequence, String.toList_append, String.toList_intercalate, hcomma, hlast,
          List.append_assoc]
      · simp only [List.append_assoc, List.singleton_append]
        rw [readSequence?, skipBlanks_append fun _ => isBlank_of_mem_break]
        have hskip : skipBlanks ((',' :: gap).intercalate ((member :: members).map String.toList) ++
            ((layout.break level).toList ++ closing :: rest)) =
              c :: (more ++ ((layout.break level).toList ++ closing :: rest)) := by
          rw [hbegins, List.cons_append, skipBlanks_cons hc]
        rw [hskip]
        simp only [if_neg hne]
        exact readMembers?_intercalate hclosing hgap (fun _ => isBlank_of_mem_break) (by simp) h
          (fun _ => isBlank_of_mem_break) le_rfl

theorem length_le_of_mem_intercalate (separator : String) {member : String} {members : List String}
    (h : member ∈ members) : member.toList.length ≤ (separator.intercalate members).toList.length := by
  rw [String.toList_intercalate]
  induction members with
  | nil => cases h
  | cons first members ih =>
      cases members with
      | nil =>
          rw [List.mem_singleton.1 h]
          simp
      | cons next members =>
          rw [List.map_cons, List.intercalate_cons_of_ne_nil (by simp)]
          rcases List.mem_cons.1 h with rfl | h
          · simp only [List.length_append]
            omega
          · have hle := ih h
            simp only [List.length_append]
            omega

/-- A member is shorter than the sequence with its brackets. -/
theorem length_lt_of_mem_sequence {opening last member : String} {members : List String}
    (hopening : opening.toList.length = 1) (h : member ∈ members) :
    member.toList.length < (sequence layout level opening last members).toList.length := by
  cases members with
  | nil => cases h
  | cons first members =>
      have hle := length_le_of_mem_intercalate (layout.comma (level + 1)) h
      simp only [sequence, String.toList_append, List.length_append]
      omega

end Members

/-! ## Documents -/

theorem isClosing_bracket : IsClosing ']' := ⟨rfl, by decide, rfl⟩

theorem isClosing_brace : IsClosing '\x7d' := ⟨rfl, by decide, rfl⟩

theorem isBlank_of_isDigit {c : Char} (h : c.isDigit = true) : isBlank c = false := by
  rw [← Bool.not_eq_true]
  intro hblank
  simp only [isBlank, Bool.or_eq_true, beq_iff_eq] at hblank
  rcases hblank with ((rfl | rfl) | rfl) | rfl <;> cases h

theorem exists_sequence_eq_cons {opening last : String} {c : Char} (hopening : opening.toList = [c])
    (members : List String) :
    ∃ more, (sequence layout level opening last members).toList = c :: more := by
  cases members <;> simp [sequence, hopening]

theorem exists_render_eq_cons (layout : Layout) (level : Nat) (document : Json) :
    ∃ c more, (document.render layout level).toList = c :: more ∧ isBlank c = false ∧ c ≠ ']' := by
  cases document with
  | null => exact ⟨'n', ['u', 'l', 'l'], by simp [render], rfl, by decide⟩
  | int number =>
      obtain ⟨c, digits, htext, hc⟩ := exists_toList_toString number
      refine ⟨c, digits, by rw [render, htext], ?_⟩
      rcases hc with hc | rfl
      · refine ⟨isBlank_of_isDigit hc, ?_⟩
        rintro rfl
        cases hc
      · exact ⟨rfl, by decide⟩
  | str value => exact ⟨'"', _, by rw [render]; exact String.toList_ofList, rfl, by decide⟩
  | arr items =>
      obtain ⟨more, hmore⟩ : ∃ more, (sequence layout level "[" "]"
        (renderItems layout (level + 1) items)).toList = '[' :: more := exists_sequence_eq_cons rfl _
      exact ⟨'[', more, by rw [render, hmore], rfl, by decide⟩
  | obj fields =>
      obtain ⟨more, hmore⟩ : ∃ more, (sequence layout level "\x7b" "\x7d"
        (renderFields layout (level + 1) fields)).toList = '\x7b' :: more := exists_sequence_eq_cons rfl _
      exact ⟨'\x7b', more, by rw [render, hmore], rfl, by decide⟩

/-- Blanks in front of a document are skipped, and nothing of the document is. -/
theorem skipBlanks_render (hblanks : ∀ c ∈ blanks, isBlank c = true) (layout : Layout) (level : Nat)
    (document : Json) (rest : List Char) :
    skipBlanks (blanks ++ ((document.render layout level).toList ++ rest)) =
      (document.render layout level).toList ++ rest := by
  obtain ⟨c, more, htext, hc, -⟩ := exists_render_eq_cons layout level document
  rw [skipBlanks_append hblanks, htext, List.cons_append, skipBlanks_cons hc]

theorem readValue?_int {number : Int} {fuel : Nat} (hblanks : ∀ c ∈ blanks, isBlank c = true)
    (hrest : Ends rest) :
    readValue? (fuel + 1) (blanks ++ (((int number).render layout level).toList ++ rest)) =
      some (int number, rest) := by
  obtain ⟨c, digits, htext, hc⟩ := exists_toList_toString number
  have hne : ∀ d, d.isDigit = false → d ≠ '-' → ∀ more, (toString number).toList ++ rest ≠ d :: more := by
    intro d hdigit hminus more heq
    rw [htext] at heq
    obtain rfl := (List.cons.inj heq).1
    rcases hc with hc | hc
    · exact Bool.false_ne_true (hdigit.symm.trans hc)
    · exact hminus hc
  rw [readValue?, skipBlanks_render hblanks, render]
  split
  · exact absurd ‹_› (hne 'n' rfl (by decide) _)
  · exact absurd ‹_› (hne '"' rfl (by decide) _)
  · exact absurd ‹_› (hne '[' rfl (by decide) _)
  · exact absurd ‹_› (hne '\x7b' rfl (by decide) _)
  · rw [readInt?_toString number hrest]
    rfl

/-- A field is read back if its value is. -/
theorem readAs_field {value? : List Char → Option (Json × List Char)} {value : Json} (name : String)
    (hvalue : ReadAs value? ']' (value.render layout level).toList value) :
    ReadAs (readField? value?) '\x7d' (encodeString name ++ ": " ++ value.render layout level).toList
      (name, value) := by
  have hopening : ∃ more, (encodeString name).toList = '"' :: more := ⟨_, String.toList_ofList⟩
  obtain ⟨more, hmore⟩ := hopening
  refine ⟨⟨'"', _, by rw [String.toList_append, String.toList_append, hmore]; rfl, rfl, by decide⟩, ?_⟩
  intro blanks rest hblanks hrest
  obtain ⟨text, htext, hread⟩ :=
    readString?_encodeString name (':' :: ' ' :: ((value.render layout level).toList ++ rest))
  have hread' := hvalue.read [' '] rest (by simp [isBlank]) hrest
  have hline : (encodeString name ++ ": " ++ value.render layout level).toList ++ rest =
      '"' :: (text ++ ':' :: ' ' :: ((value.render layout level).toList ++ rest)) := by
    simp [htext]
  rw [hline, readField?, skipBlanks_append hblanks, skipBlanks_cons rfl]
  simp only [hread]
  rw [skipBlanks_cons rfl]
  simp only
  rw [← List.singleton_append, hread']
  rfl

/-- With the fuel, each document is read back for whose text it lasts. -/
def ReadsBack (fuel : Nat) : Prop :=
  ∀ (layout : Layout) (level : Nat) (document : Json), (document.render layout level).toList.length < fuel →
    ReadAs (readValue? fuel) ']' (document.render layout level).toList document

section Step

variable {fuel : Nat}

theorem ReadsBack.items (h : ReadsBack fuel) (items : List Json)
    (htexts : ∀ text ∈ renderItems layout level items, text.toList.length < fuel) :
    List.Forall₂ (ReadAs (readValue? fuel) ']') ((renderItems layout level items).map String.toList) items := by
  induction items with
  | nil => exact .nil
  | cons item items ih =>
      refine .cons (h layout level item (htexts _ List.mem_cons_self)) (ih fun text htext => ?_)
      exact htexts text (List.mem_cons_of_mem _ htext)

theorem ReadsBack.fields (h : ReadsBack fuel) (fields : List (String × Json))
    (htexts : ∀ text ∈ renderFields layout level fields, text.toList.length < fuel) :
    List.Forall₂ (ReadAs (readField? (readValue? fuel)) '\x7d')
      ((renderFields layout level fields).map String.toList) fields := by
  induction fields with
  | nil => exact .nil
  | cons field fields ih =>
      obtain ⟨name, value⟩ := field
      refine .cons (readAs_field name (h layout level value ?_)) (ih fun text htext => ?_)
      · have hfield := htexts _ List.mem_cons_self
        rw [String.toList_append, List.length_append] at hfield
        omega
      · exact htexts text (List.mem_cons_of_mem _ htext)

/-- Members are shorter than what they are members of, so one step less is enough for them. -/
theorem ReadsBack.succ (h : ReadsBack fuel) : ReadsBack (fuel + 1) := by
  intro layout level document hlength
  refine ⟨exists_render_eq_cons layout level document, fun blanks rest hblanks hrest => ?_⟩
  cases document with
  | null =>
      rw [readValue?, skipBlanks_render hblanks, render]
      rfl
  | int number => exact readValue?_int hblanks hrest
  | str value =>
      obtain ⟨text, htext, hread⟩ := readString?_encodeString value rest
      rw [readValue?, skipBlanks_render hblanks, render, htext]
      simp only [List.cons_append, hread, Option.map_some]
  | arr items =>
      rw [render] at hlength
      have hitems := h.items items fun text htext =>
        Nat.lt_of_lt_of_le (length_lt_of_mem_sequence rfl htext) (Nat.le_of_lt_succ hlength)
      obtain ⟨text, htext, hread⟩ := readSequence?_sequence layout level "[" "]" isClosing_bracket rfl hitems
        rest
      rw [readValue?, skipBlanks_render hblanks, render, htext]
      simp only [String.reduceToList, List.cons_append, List.nil_append, hread, Option.map_some]
  | obj fields =>
      rw [render] at hlength
      have hfields := h.fields fields fun text htext =>
        Nat.lt_of_lt_of_le (length_lt_of_mem_sequence rfl htext) (Nat.le_of_lt_succ hlength)
      obtain ⟨text, htext, hread⟩ := readSequence?_sequence layout level "\x7b" "\x7d" isClosing_brace rfl
        hfields rest
      rw [readValue?, skipBlanks_render hblanks, render, htext]
      simp only [String.reduceToList, List.cons_append, List.nil_append, hread, Option.map_some]

end Step

theorem readsBack (fuel : Nat) : ReadsBack fuel := by
  induction fuel with
  | zero => exact fun _ _ _ hlength => absurd hlength (Nat.not_lt_zero _)
  | succ fuel ih => exact ih.succ

/-- A text that begins with a document is one document exactly if nothing but blanks follows. -/
theorem read?_toText_append (document : Json) (layout : Layout) {rest : String} (hrest : Ends rest.toList) :
    read? (document.toText layout ++ rest) = if rest.toList.all isBlank then some document else none := by
  have hlength : (document.render layout 0).toList.length <
      (document.toText layout ++ rest).toList.length + 1 := by
    rw [toText, String.toList_append, List.length_append]
    omega
  have hread := (readsBack _ layout 0 document hlength).read [] rest.toList nofun hrest
  rw [read?, toText, String.toList_append]
  rw [toText, String.toList_append, List.nil_append] at hread
  rw [hread]

end Json

end EnvAudit
