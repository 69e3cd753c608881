import EnvAudit.Proofs.Source
import EnvAudit.Proofs.Text.Case
import EnvAudit.Proofs.Text.Split

/-!
# Nested elements

Tags cut a text into elements, which can stand in one another.  Removing each section from an opening
tag to the next closing tag removes an outermost element if no other element stands in it.  Of one that
holds elements, the section ends with the first of them that ends, and the rest of the outermost element
is left.
-/

namespace EnvAudit.Source

/-- A tag as it is spelled, or a character outside tags. -/
inductive Tag
  /-- The beginning of an opening tag, up to the name. -/
  | opening (spelled : List Char)
  | closing (spelled : List Char)
  | char (c : Char)
deriving Repr, DecidableEq

def openingMark (name : List Char) : List Char := '<' :: name

def closingMark (name : List Char) : List Char := '<' :: '/' :: (name ++ ['>'])

/-- The tags of an element in a text, and the characters between them.  What follows the name in an
opening tag counts as a part of the element.  `skip` counts the characters of a tag still to be
passed. -/
def tagsOf (name : List Char) : (skip : Nat) → List Char → List Tag
  | _, [] => []
  | skip + 1, _ :: rest => tagsOf name skip rest
  | 0, c :: rest =>
    if beginsAnyCase (openingMark name) (c :: rest) then
      .opening (c :: rest.take name.length) :: tagsOf name name.length rest
    else if beginsAnyCase (closingMark name) (c :: rest) then
      .closing (c :: rest.take (name.length + 2)) :: tagsOf name (name.length + 2) rest
    else .char c :: tagsOf name 0 rest

/-- Whether every opening tag has its closing tag, where `depth` elements are open. -/
def isNested : (depth : Nat) → List Tag → Bool
  | depth, [] => depth == 0
  | depth, .opening _ :: tags => isNested (depth + 1) tags
  | 0, .closing _ :: _ => false
  | depth + 1, .closing _ :: tags => isNested depth tags
  | depth, .char _ :: tags => isNested depth tags

/-- Whether no element stands in another one. -/
def isFlat : (depth : Nat) → List Tag → Bool
  | _, [] => true
  | depth, .opening _ :: tags => depth == 0 && isFlat (depth + 1) tags
  | depth, .closing _ :: tags => isFlat (depth - 1) tags
  | depth, .char _ :: tags => isFlat depth tags

/-- The text outside the outermost elements. -/
def outside : (depth : Nat) → List Tag → List Char
  | _, [] => []
  | depth, .opening _ :: tags => outside (depth + 1) tags
  | depth, .closing _ :: tags => outside (depth - 1) tags
  | 0, .char c :: tags => c :: outside 0 tags
  | depth + 1, .char _ :: tags => outside (depth + 1) tags

/-- The text outside the sections that begin with an opening tag and end with the next closing tag. -/
def outsideSections : (inside : Bool) → List Tag → List Char
  | _, [] => []
  | _, .opening _ :: tags => outsideSections true tags
  | true, .closing _ :: tags => outsideSections false tags
  | false, .closing spelled :: tags => spelled ++ outsideSections false tags
  | true, .char _ :: tags => outsideSections true tags
  | false, .char c :: tags => c :: outsideSections false tags

/-! ## Sections and elements -/

variable {tags : List Tag} {depth : Nat}

/-- Where no element stands in another one, sections and elements are the same. -/
theorem outsideSections_eq_outside (inside : Bool) (hnested : isNested inside.toNat tags = true)
    (hflat : isFlat inside.toNat tags = true) :
    outsideSections inside tags = outside inside.toNat tags := by
  induction tags generalizing inside with
  | nil => cases inside <;> rfl
  | cons tag tags ih =>
      cases tag with
      | opening spelled =>
          rw [isFlat, Bool.and_eq_true] at hflat
          cases inside with
          | false => exact ih true hnested hflat.2
          | true => cases hflat.1
      | closing spelled =>
          cases inside with
          | false => cases hnested
          | true => exact ih _ hnested hflat
      | char c =>
          cases inside with
          | false => exact congrArg (c :: ·) (ih _ hnested hflat)
          | true => exact ih _ hnested hflat

/-- Nothing outside the outermost elements is removed. -/
theorem outside_sublist (inside : Bool) (hdepth : inside.toNat ≤ depth) (hnested : isNested depth tags = true) :
    (outside depth tags).Sublist (outsideSections inside tags) := by
  induction tags generalizing inside depth with
  | nil => exact List.nil_sublist _
  | cons tag tags ih =>
      cases tag with
      | opening spelled => exact ih true (by simp) hnested
      | closing spelled =>
          cases depth with
          | zero => cases hnested
          | succ depth =>
              cases inside with
              | false => exact (ih false (Nat.zero_le depth) hnested).trans (List.sublist_append_right ..)
              | true => exact ih false (Nat.zero_le depth) hnested
      | char c =>
          cases inside with
          | false =>
              cases depth with
              | zero => exact (ih false (Nat.le_refl 0) hnested).cons_cons c
              | succ depth => exact (ih false (Nat.zero_le _) hnested).cons c
          | true =>
              cases depth with
              | zero => cases hdepth
              | succ depth => exact ih true hdepth hnested

/-- A closing tag is left over where more elements are open than a section knows of. -/
theorem length_outside_lt (inside : Bool) (hdepth : inside.toNat ≤ depth) (hnested : isNested depth tags = true)
    (hspelled : ∀ spelled, .closing spelled ∈ tags → spelled ≠ [])
    (hmore : inside.toNat < depth ∨ isFlat depth tags = false) :
    (outside depth tags).length < (outsideSections inside tags).length := by
  induction tags generalizing inside depth with
  | nil =>
      rw [isNested, beq_iff_eq] at hnested
      rw [hnested] at hmore
      exact absurd hmore (by simp [isFlat])
  | cons tag tags ih =>
      have htags : ∀ spelled, .closing spelled ∈ tags → spelled ≠ [] := fun spelled hmem =>
        hspelled spelled (List.mem_cons_of_mem tag hmem)
      cases tag with
      | opening spelled =>
          refine ih true (by simp) hnested htags ?_
          rw [isFlat, Bool.and_eq_false_iff, beq_eq_false_iff_ne] at hmore
          rcases hmore with hmore | hmore | hmore
          · exact .inl (by simp; omega)
          · exact .inl (by simp; omega)
          · exact .inr hmore
      | closing spelled =>
          cases depth with
          | zero => cases hnested
          | succ depth =>
              cases inside with
              | false =>
                  have hle := (outside_sublist false (Nat.zero_le depth) hnested).length_le
                  have hpos := List.length_pos_of_ne_nil (hspelled spelled List.mem_cons_self)
                  rw [outside, outsideSections, List.length_append]
                  simp only [Nat.add_sub_cancel]
                  omega
              | true =>
                  refine ih false (Nat.zero_le depth) hnested htags (hmore.imp_left fun hlt => ?_)
                  simpa using hlt
      | char c =>
          cases inside with
          | false =>
              cases depth with
              | zero => exact Nat.succ_lt_succ (ih false hdepth hnested htags hmore)
              | succ depth => exact Nat.lt_succ_of_lt (ih false hdepth hnested htags hmore)
          | true =>
              cases depth with
              | zero => cases hdepth
              | succ depth => exact ih true hdepth hnested htags hmore

/-! ## The marks of a tag -/

theorem eq_of_sameLetter {c mark : Char} (h : Text.sameLetter c mark = true) (hpos : 0 < mark.toNat)
    (hlow : mark.toNat < 0x41) : c = mark :=
  (Text.eq_of_mem_caseVariants (List.contains_iff_mem.1 h) hpos hlow).symm

/-- An opening bracket is no other letter. -/
theorem eq_bracket_of_sameLetter {mark : Char} (h : Text.sameLetter '<' mark = true) : mark = '<' :=
  List.mem_singleton.1 (List.contains_iff_mem.1 h)

/-- What begins like a text without brackets holds none there. -/
theorem bracket_notMem_take {part text : List Char} (h : beginsAnyCase part text = true)
    (hpart : '<' ∉ part) : '<' ∉ text.take part.length := by
  induction part generalizing text with
  | nil => simp
  | cons p part ih =>
      cases text with
      | nil => simp
      | cons c text =>
          rw [beginsAnyCase, Bool.and_eq_true] at h
          rw [List.mem_cons, not_or] at hpart
          rw [List.length_cons, List.take_succ_cons, List.mem_cons, not_or]
          refine ⟨fun hc => hpart.1 ?_, ih h.2 hpart.2⟩
          subst hc
          exact (eq_bracket_of_sameLetter h.1).symm

theorem beginsAnyCase_bracket {part rest : List Char} {c : Char}
    (h : beginsAnyCase ('<' :: part) (c :: rest) = true) : c = '<' ∧ beginsAnyCase part rest = true := by
  rw [beginsAnyCase, Bool.and_eq_true] at h
  exact ⟨eq_of_sameLetter h.1 (by decide) (by decide), h.2⟩

/-- A name with which the tags of an element can be told apart. -/
structure IsElementName (name : List Char) : Prop where
  ne_nil : name ≠ []
  noBracket : '<' ∉ name
  noSlash : '/' ∉ name

variable {name text : List Char}

/-- No text begins with both tags of an element. -/
theorem beginsAnyCase_closingMark_eq_false (hname : IsElementName name)
    (h : beginsAnyCase (openingMark name) text = true) :
    beginsAnyCase (closingMark name) text = false := by
  by_contra hclosing
  rw [Bool.not_eq_false] at hclosing
  obtain ⟨first, more, rfl⟩ := List.exists_cons_of_ne_nil hname.ne_nil
  cases text with
  | nil => cases h
  | cons c rest =>
      cases rest with
      | nil => exact absurd (beginsAnyCase_bracket h).2 (by simp [beginsAnyCase])
      | cons d rest =>
          have hfirst := (beginsAnyCase_bracket h).2
          have hslash := (beginsAnyCase_bracket hclosing).2
          rw [beginsAnyCase, Bool.and_eq_true] at hfirst hslash
          obtain rfl := eq_of_sameLetter hslash.1 (by decide) (by decide)
          have heq : first = '/' := List.mem_singleton.1 (List.contains_iff_mem.1 hfirst.1)
          exact hname.noSlash (heq ▸ List.mem_cons_self)

theorem bracket_notMem_take_of_opening (hname : IsElementName name) {c : Char} {rest : List Char}
    (h : beginsAnyCase (openingMark name) (c :: rest) = true) : '<' ∉ rest.take name.length :=
  bracket_notMem_take (beginsAnyCase_bracket h).2 hname.noBracket

theorem bracket_notMem_take_of_closing (hname : IsElementName name) {c : Char} {rest : List Char}
    (h : beginsAnyCase (closingMark name) (c :: rest) = true) :
    '<' ∉ rest.take (name.length + 2) := by
  have htake := bracket_notMem_take (beginsAnyCase_bracket h).2 (by simp [hname.noBracket])
  simpa using htake

/-! ## Removal of sections -/

/-- Within a section nothing but a bracket can end it. -/
theorem dropSections_inside {opening part : List Char} {count : Nat} (h : '<' ∉ text.take count) :
    dropSections opening ('<' :: part) 0 true text =
      dropSections opening ('<' :: part) count true text := by
  induction count generalizing text with
  | zero => rfl
  | succ count ih =>
      cases text with
      | nil => rfl
      | cons c rest =>
          rw [List.take_succ_cons, List.mem_cons, not_or] at h
          have hbegins : beginsAnyCase ('<' :: part) (c :: rest) = false :=
            eq_false_of_ne_true fun hbegins => h.1 (beginsAnyCase_bracket hbegins).1.symm
          have hstep : dropSections opening ('<' :: part) 0 true (c :: rest) =
              dropSections opening ('<' :: part) 0 true rest := by
            rw [dropSections, if_neg (by simp [hbegins])]
          rw [hstep, ih h.2, dropSections]

/-- Outside sections nothing but a bracket can begin one. -/
theorem dropSections_outside {part closing : List Char} {count : Nat} (h : '<' ∉ text.take count) :
    dropSections ('<' :: part) closing 0 false text =
      text.take count ++ dropSections ('<' :: part) closing count false text := by
  induction count generalizing text with
  | zero => rfl
  | succ count ih =>
      cases text with
      | nil => rfl
      | cons c rest =>
          rw [List.take_succ_cons, List.mem_cons, not_or] at h
          have hbegins : beginsAnyCase ('<' :: part) (c :: rest) = false :=
            eq_false_of_ne_true fun hbegins => h.1 (beginsAnyCase_bracket hbegins).1.symm
          have hstep : dropSections ('<' :: part) closing 0 false (c :: rest) =
              c :: dropSections ('<' :: part) closing 0 false rest := by
            rw [dropSections, if_neg (by simp [hbegins])]
          rw [hstep, ih h.2, List.take_succ_cons, List.cons_append, dropSections]

theorem occursAnyCase_of_drop {part : List Char} {count : Nat}
    (h : occursAnyCase part (text.drop count) = true) : occursAnyCase part text = true := by
  induction count generalizing text with
  | zero => exact h
  | succ count ih =>
      cases text with
      | nil => exact h
      | cons c rest => rw [occursAnyCase, ih h, Bool.or_true]

/-- Where an element is open in a well nested text, its closing tag follows. -/
theorem occursAnyCase_closingMark {skip : Nat}
    (h : isNested (depth + 1) (tagsOf name skip text) = true) :
    occursAnyCase (closingMark name) (text.drop skip) = true := by
  fun_induction tagsOf name skip text generalizing depth with
  | case1 => cases h
  | case2 skip c rest ih => exact ih h
  | case3 c rest _ ih =>
      rw [List.drop_zero, occursAnyCase, occursAnyCase_of_drop (ih h), Bool.or_true]
  | case4 c rest _ hclosing ih => rw [List.drop_zero, occursAnyCase, hclosing, Bool.true_or]
  | case5 c rest _ _ ih =>
      rw [List.drop_zero, occursAnyCase, ← List.drop_zero (l := rest), ih h, Bool.or_true]

/-- Removing sections is reading the tags one after the other. -/
theorem dropSections_eq_outsideSections {inside : Bool} (hname : IsElementName name) {skip : Nat}
    (h : isNested depth (tagsOf name skip text) = true) :
    dropSections (openingMark name) (closingMark name) skip inside text =
      outsideSections inside (tagsOf name skip text) := by
  have hlength : (closingMark name).length - 1 = name.length + 2 := by simp [closingMark]
  fun_induction tagsOf name skip text generalizing depth inside with
  | case1 => cases inside <;> rfl
  | case2 skip c rest ih => rw [dropSections, ih h]
  | case3 c rest hopening ih =>
      cases inside with
      | false =>
          have hoccurs := occursAnyCase_closingMark h
          rw [dropSections, if_pos, outsideSections, ← ih h]
          · rfl
          · rw [hopening, Bool.true_and]
            exact hoccurs
      | true =>
          rw [dropSections, if_neg (by simp [beginsAnyCase_closingMark_eq_false hname hopening]),
            outsideSections, ← ih h]
          exact dropSections_inside (bracket_notMem_take_of_opening hname hopening)
  | case4 c rest hopening hclosing ih =>
      cases depth with
      | zero => cases h
      | succ depth =>
          cases inside with
          | false =>
              rw [dropSections, if_neg (by simp [hopening]), outsideSections, ← ih h]
              have hrest := bracket_notMem_take_of_closing hname hclosing
              exact congrArg (c :: ·) (dropSections_outside hrest)
          | true => rw [dropSections, if_pos hclosing, outsideSections, hlength, ih h]
  | case5 c rest hopening hclosing ih =>
      cases inside with
      | false => rw [dropSections, if_neg (by simp [hopening]), outsideSections, ih h]
      | true => rw [dropSections, if_neg hclosing, outsideSections, ih h]

theorem dropElement_eq_self (element : String)
    (h : occursAnyCase (openingMark element.toList) text = false) : dropElement element text = text := by
  rw [dropElement]
  induction text with
  | nil => rfl
  | cons c rest ih =>
      rw [occursAnyCase, Bool.or_eq_false_iff, openingMark] at h
      rw [dropSections, if_neg (by simp [h.1]), ih h.2]

theorem closing_ne_nil_of_mem_tagsOf {skip : Nat} {spelled : List Char}
    (h : .closing spelled ∈ tagsOf name skip text) : spelled ≠ [] := by
  fun_induction tagsOf name skip text with
  | case1 => cases h
  | case2 skip c rest ih => exact ih h
  | case3 c rest _ ih | case5 c rest _ _ ih => exact ih (by simpa using h)
  | case4 c rest _ _ ih =>
      rcases List.mem_cons.1 h with heq | hmem
      · cases heq
        exact List.cons_ne_nil _ _
      · exact ih hmem

/-- Sections and elements are the same only where no element stands in another one. -/
theorem outsideSections_eq_outside_iff (hnested : isNested 0 (tagsOf name 0 text) = true) :
    outsideSections false (tagsOf name 0 text) = outside 0 (tagsOf name 0 text) ↔
      isFlat 0 (tagsOf name 0 text) = true := by
  refine ⟨fun heq => ?_, fun hflat => outsideSections_eq_outside false hnested hflat⟩
  by_contra hflat
  have hlt := length_outside_lt false (Nat.le_refl 0) hnested
    (fun spelled => closing_ne_nil_of_mem_tagsOf) (.inr (eq_false_of_ne_true hflat))
  rw [heq] at hlt
  exact Nat.lt_irrefl _ hlt

theorem isElementName_template : IsElementName "template".toList := ⟨by decide, by decide, by decide⟩

def templateTags (source : List Char) : List Tag := tagsOf "template".toList 0 source

/-- The code of a component with well nested templates is what stands outside the sections between an
opening tag of a template and the next closing tag.  Nothing outside the outermost templates is removed
in this way, and nothing else is left exactly if no template stands in another one. -/
theorem code_eq_outside_iff (source : List Char) (comments : Bool) (hline : ¬ ['/', '/'] <:+: source)
    (hblock : ¬ ['/', '*'] <:+: source) (hnested : isNested 0 (templateTags source) = true) :
    code source comments true =
        dropElement "style" (outsideSections false (templateTags source)) ∧
      (outside 0 (templateTags source)).Sublist (outsideSections false (templateTags source)) ∧
      (occursAnyCase "<style".toList (outsideSections false (templateTags source)) = false →
        (code source comments true = outside 0 (templateTags source) ↔
          isFlat 0 (templateTags source) = true)) := by
  have hcomments : (if comments then dropComments source else source) = source := by
    rw [dropComments_eq_self hblock hline, ite_self]
  have htemplate : dropElement "template" source = outsideSections false (templateTags source) :=
    dropSections_eq_outsideSections isElementName_template hnested
  have hcode : code source comments true =
      dropElement "style" (outsideSections false (templateTags source)) := by
    rw [code, hcomments, if_pos rfl, dropMarkup, htemplate]
  refine ⟨hcode, outside_sublist false (Nat.zero_le 0) hnested, fun hstyle => ?_⟩
  rw [hcode, dropElement_eq_self "style" hstyle]
  exact outsideSections_eq_outside_iff hnested

/-- Two templates, one behind the other, the second one in capitals. -/
def siblingTemplates : List Char :=
  "<template lang=\"pug\">a</template>b<TEMPLATE>c</Template>d".toList

theorem code_eq_outside_iff_siblingTemplates :
    ¬ ['/', '/'] <:+: siblingTemplates ∧ ¬ ['/', '*'] <:+: siblingTemplates ∧
      isNested 0 (templateTags siblingTemplates) = true ∧
      code siblingTemplates true true = outside 0 (templateTags siblingTemplates) ∧
      outside 0 (templateTags siblingTemplates) = "bd".toList := by
  have hline : ¬ ['/', '/'] <:+: siblingTemplates := fun hpart =>
    absurd (Text.occurs_iff_infix.2 hpart) (by decide +kernel)
  have hblock : ¬ ['/', '*'] <:+: siblingTemplates := fun hpart =>
    absurd (Text.occurs_iff_infix.2 hpart) (by decide +kernel)
  have hnested : isNested 0 (templateTags siblingTemplates) = true := by decide +kernel
  have hstyle : occursAnyCase "<style".toList
      (outsideSections false (templateTags siblingTemplates)) = false := by decide +kernel
  have hflat : isFlat 0 (templateTags siblingTemplates) = true := by decide +kernel
  refine ⟨hline, hblock, hnested, ?_, by decide +kernel⟩
  exact ((code_eq_outside_iff siblingTemplates true hline hblock hnested).2.2 hstyle).2 hflat

/-- A template in a template. -/
def nestedTemplates : List Char := "<template><template></template>a</template>".toList

/-- Of a template that holds another one, what follows the inner one is left. -/
theorem code_ne_outside :
    Text.occurs ['/', '/'] nestedTemplates = false ∧ Text.occurs ['/', '*'] nestedTemplates = false ∧
      occursAnyCase "<style".toList nestedTemplates = false ∧
      isNested 0 (templateTags nestedTemplates) = true ∧
      code nestedTemplates true true = "a</template>".toList ∧
      outside 0 (templateTags nestedTemplates) = [] := by
  decide +kernel

end EnvAudit.Source
