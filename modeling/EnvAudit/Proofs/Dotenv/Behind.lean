import EnvAudit.Proofs.Dotenv.Definition
import EnvAudit.Proofs.Text.Blank

/-!
# Definitions behind line ends

A definition is made of blanks and of characters of names, up to its equals sign.  At any other
character, as at the equals sign, a content can be cut: what it defines is what its two parts define.
-/

namespace EnvAudit.Dotenv

variable {name : String} {front rest text : List Char} {c : Char}

/-! ## Names -/

/-- A character of a name: an ASCII letter or digit, an underscore or a dollar sign. -/
def isNameChar (c : Char) : Bool := c.isAlphanum || c == '_' || c == '$'

/-- A name made of letters, digits, underscores and dollar signs. -/
def IsName (name : String) : Prop := ∀ c ∈ name.toList, isNameChar c = true

instance (name : String) : Decidable (IsName name) :=
  inferInstanceAs (Decidable (∀ c ∈ name.toList, isNameChar c = true))

theorem isBlank_of_isNameChar (h : isNameChar c = true) : Text.isBlank c = false := by
  rw [isNameChar, Bool.or_eq_true, Bool.or_eq_true, Char.isAlphanum, Bool.or_eq_true, beq_iff_eq,
    beq_iff_eq] at h
  rcases h with ((hletter | hdigit) | rfl) | rfl
  · exact Text.isBlank_of_isAlpha hletter
  · rw [Char.isDigit_iff_toNat] at hdigit
    have hzero : '0'.toNat = 48 := rfl
    have hnine : '9'.toNat = 57 := rfl
    exact Text.isBlank_eq_false (by omega) (by omega)
  · decide
  · decide

theorem IsName.notMem (h : IsName name) (hc : isNameChar c = false) : c ∉ name.toList := by
  intro hmem
  rw [h c hmem] at hc
  cases hc

/-- A character at which a definition ends, if it holds it at all. -/
structure IsCut (c : Char) : Prop where
  notBlank : Text.isBlank c = false
  notName : isNameChar c = false

theorem isCut_equals : IsCut '=' := ⟨by decide, by decide⟩

theorem isCut_quote : IsCut '"' := ⟨by decide, by decide⟩

theorem isCut_slash : IsCut '\\' := ⟨by decide, by decide⟩

theorem isCut_period : IsCut '.' := ⟨by decide, by decide⟩

/-- What stands in front of the equals sign of a definition is blank or belongs to a name. -/
theorem exists_eq_concat_of_mem_definitions (hname : IsName name) (h : text ∈ definitions name) :
    ∃ lead, text = lead ++ ['='] ∧ ∀ c ∈ lead, ¬ IsCut c := by
  obtain ⟨_, ⟨blank, keyword, hblank, rfl, hkeyword⟩, rfl⟩ := h
  have hexport : IsName "export" := by decide
  have hgap : ∀ c ∈ keyword, ¬ IsCut c := by
    intro c hc hcut
    rcases hkeyword with rfl | ⟨gap, ⟨-, hgap⟩, rfl⟩
    · cases hc
    · rcases List.mem_append.1 hc with hc | hc
      · exact hexport.notMem hcut.notName hc
      · exact absurd (hgap c hc) (by simp [hcut.notBlank])
  refine ⟨blank ++ keyword ++ name.toList, rfl, ?_⟩
  intro c hc hcut
  rcases List.mem_append.1 hc with hlead | hc
  · rcases List.mem_append.1 hlead with hc | hc
    · exact absurd (hblank c hc) (by simp [hcut.notBlank])
    · exact hgap c hc hcut
  · exact hname.notMem hcut.notName hc

theorem notMem_of_mem_definitions (hname : IsName name) (htext : text ∈ definitions name)
    (hc : IsCut c) (hne : c ≠ '=') : c ∉ text := by
  obtain ⟨lead, rfl, hlead⟩ := exists_eq_concat_of_mem_definitions hname htext
  intro hmem
  rcases List.mem_append.1 hmem with hmem | hmem
  · exact hlead c hmem hc
  · exact hne (List.mem_singleton.1 hmem)

/-! ## Definitions behind a line end -/

/-- A variable is defined behind a line feed of the text. -/
def DefinesBehind (content : List Char) (name : String) : Prop :=
  ∃ front, ∃ text ∈ definitions name, ∃ rest, content = front ++ '\n' :: (text ++ rest)

/-- The start of a content counts as the start of a line. -/
theorem defines_iff_definesBehind {content : List Char} :
    defines content name = true ↔ DefinesBehind ('\n' :: content) name := by
  rw [defines_iff]
  constructor
  · rintro ⟨front, text, htext, rest, rfl, rfl | ⟨before, rfl⟩⟩
    · exact ⟨[], text, htext, rest, rfl⟩
    · refine ⟨'\n' :: before, text, htext, rest, ?_⟩
      rw [List.append_assoc, List.singleton_append, List.cons_append]
  · rintro ⟨front, text, htext, rest, heq⟩
    cases front with
    | nil => exact ⟨[], text, htext, rest, (List.cons.inj heq).2, .inl rfl⟩
    | cons first before =>
        refine ⟨before ++ ['\n'], text, htext, rest, ?_, .inr ⟨before, rfl⟩⟩
        have hcontent : content = before ++ '\n' :: (text ++ rest) := (List.cons.inj heq).2
        rw [hcontent, List.append_assoc, List.singleton_append]

theorem not_definesBehind_of_newline_notMem (h : '\n' ∉ text) : ¬ DefinesBehind text name := by
  rintro ⟨front, _, -, rest, rfl⟩
  simp at h

theorem not_definesBehind_nil : ¬ DefinesBehind [] name :=
  not_definesBehind_of_newline_notMem List.not_mem_nil

theorem definesBehind_newline_cons_iff :
    DefinesBehind ('\n' :: rest) name ↔
      (∃ text ∈ definitions name, text <+: rest) ∨ DefinesBehind rest name := by
  constructor
  · rintro ⟨front, text, htext, after, heq⟩
    cases front with
    | nil => exact .inl ⟨text, htext, after, (List.cons.inj heq).2.symm⟩
    | cons first front => exact .inr ⟨front, text, htext, after, (List.cons.inj heq).2⟩
  · rintro (⟨text, htext, after, rfl⟩ | ⟨front, text, htext, after, rfl⟩)
    · exact ⟨[], text, htext, after, rfl⟩
    · exact ⟨'\n' :: front, text, htext, after, rfl⟩

theorem DefinesBehind.append_left (h : DefinesBehind rest name) (front : List Char) :
    DefinesBehind (front ++ rest) name := by
  obtain ⟨before, text, htext, after, rfl⟩ := h
  exact ⟨front ++ before, text, htext, after, (List.append_assoc ..).symm⟩

theorem DefinesBehind.append_right (h : DefinesBehind front name) (rest : List Char) :
    DefinesBehind (front ++ rest) name := by
  obtain ⟨before, text, htext, after, rfl⟩ := h
  exact ⟨before, text, htext, after ++ rest, by simp only [List.append_assoc, List.cons_append]⟩

/-- What holds no line feed defines nothing and hides no definition behind it. -/
theorem definesBehind_append_of_newline_notMem (h : '\n' ∉ front) :
    DefinesBehind (front ++ rest) name ↔ DefinesBehind rest name := by
  refine ⟨?_, fun hrest => hrest.append_left front⟩
  rintro ⟨before, text, htext, after, heq⟩
  rcases List.append_eq_append_iff.1 heq with ⟨more, rfl, rfl⟩ | ⟨more, rfl, hrest⟩
  · exact ⟨more, text, htext, after, rfl⟩
  · cases more with
    | nil => exact ⟨[], text, htext, after, hrest.symm⟩
    | cons first more =>
        obtain ⟨rfl, -⟩ := List.cons.inj hrest
        simp at h

/-- What holds no equals sign completes no definition. -/
theorem definesBehind_append_of_equals_notMem (hname : IsName name) (h : '=' ∉ rest) :
    DefinesBehind (front ++ rest) name ↔ DefinesBehind front name := by
  refine ⟨?_, fun hfront => hfront.append_right rest⟩
  rintro ⟨before, text, htext, after, heq⟩
  obtain ⟨lead, rfl, -⟩ := exists_eq_concat_of_mem_definitions hname htext
  have hsplit : front ++ rest = (before ++ '\n' :: lead) ++ '=' :: after := by
    rw [heq]
    simp only [List.append_assoc, List.cons_append, List.nil_append]
  rcases List.append_eq_append_iff.1 hsplit with ⟨more, -, rfl⟩ | ⟨more, rfl, hrest⟩
  · simp at h
  · cases more with
    | nil =>
        rw [List.nil_append] at hrest
        rw [← hrest] at h
        simp at h
    | cons first more =>
        obtain ⟨rfl, -⟩ := List.cons.inj hrest
        refine ⟨before, lead ++ ['='], htext, more, ?_⟩
        simp only [List.append_assoc, List.cons_append, List.nil_append]

/-- No definition reaches beyond a cut. -/
theorem definesBehind_append_cons (hname : IsName name) (hc : IsCut c) :
    DefinesBehind (front ++ c :: rest) name ↔
      DefinesBehind (front ++ [c]) name ∨ DefinesBehind rest name := by
  have hsplit : front ++ c :: rest = (front ++ [c]) ++ rest := by simp
  rw [hsplit]
  constructor
  · rintro ⟨before, text, htext, after, heq⟩
    obtain ⟨lead, rfl, hlead⟩ := exists_eq_concat_of_mem_definitions hname htext
    have hline : (front ++ [c]) ++ rest = (before ++ '\n' :: (lead ++ ['='])) ++ after := by
      rw [heq]
      simp only [List.append_assoc, List.cons_append]
    rcases List.append_eq_append_iff.1 hline with ⟨more, hmore, rfl⟩ | ⟨more, hmore, -⟩
    · rcases List.append_eq_append_iff.1 hmore with ⟨late, hlate, hdefinition⟩ | ⟨late, -, rfl⟩
      · rcases late.eq_nil_or_concat with rfl | ⟨late, d, rfl⟩
        · refine .inr ⟨[], lead ++ ['='], htext, after, ?_⟩
          rw [List.nil_append] at hdefinition
          rw [← hdefinition]
          rfl
        rcases more.eq_nil_or_concat with rfl | ⟨more, e, rfl⟩
        · refine .inl ⟨before, lead ++ ['='], htext, [], ?_⟩
          rw [List.append_nil] at hdefinition ⊢
          rw [hlate, hdefinition]
        · -- The cut would stand in front of the equals sign.
          rw [List.concat_eq_append, ← List.append_assoc] at hlate
          obtain rfl := (List.cons.inj (List.append_inj' hlate rfl).2).1
          have hinner : ('\n' :: lead) ++ ['='] = (late ++ c :: more) ++ [e] := by
            rw [List.cons_append, hdefinition]
            simp
          have hmem : c ∈ '\n' :: lead := by
            rw [(List.append_inj' hinner rfl).1]
            simp
          rcases List.mem_cons.1 hmem with rfl | hmem
          · exact absurd hc.notBlank (by decide)
          · exact absurd hc (hlead c hmem)
      · refine .inr ⟨late, lead ++ ['='], htext, after, ?_⟩
        simp only [List.append_assoc, List.cons_append]
    · refine .inl ⟨before, lead ++ ['='], htext, more, ?_⟩
      rw [hmore]
      simp only [List.append_assoc, List.cons_append]
  · rintro (h | h)
    · exact h.append_right rest
    · exact h.append_left _

/-- A cut other than an equals sign completes no definition. -/
theorem definesBehind_append_cons_of_ne (hname : IsName name) (hc : IsCut c) (hne : c ≠ '=') :
    DefinesBehind (front ++ c :: rest) name ↔
      DefinesBehind front name ∨ DefinesBehind rest name := by
  have hequals : '=' ∉ [c] := by simpa using hne.symm
  rw [definesBehind_append_cons hname hc, definesBehind_append_of_equals_notMem hname hequals]

end EnvAudit.Dotenv
