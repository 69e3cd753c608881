import EnvAudit.Proofs.Result
import EnvAudit.Terminal.Markup
import Mathlib.Data.List.Basic

/-!
# Markup that can be read

Reading markup fails only at a tag that closes nothing.  A text without brackets holds none, nor does any
text at all once it is escaped; but backslashes at its end can make the next tag text.
-/

namespace EnvAudit.Terminal.Markup

variable {c : Char} {text rest tag body after plain : List Char} {tags inside : List OpenTag}
  {slashes : Nat}

/-- A character with which neither a tag nor what makes a tag text can begin. -/
def Plain (c : Char) : Prop := c ≠ '[' ∧ c ≠ '\\'

instance (c : Char) : Decidable (Plain c) := inferInstanceAs (Decidable (c ≠ '[' ∧ c ≠ '\\'))

/-! ## Tags -/

def isBracket (c : Char) : Bool := c == ']' || c == '['

/-- Whether a text can stand between brackets as a tag. -/
def isTag : List Char → Bool
  | [] => false
  | c :: body => opensTag c && body.all (!isBracket ·)

/-- The text in front of a closing bracket and what follows it, if no opening bracket comes first. -/
def closing? : List Char → Option (List Char × List Char)
  | [] => none
  | c :: text =>
    if c = ']' then some ([], text)
    else if c = '[' then none
    else (closing? text).map fun (body, after) => (c :: body, after)

theorem closing?_eq_some_iff :
    closing? text = some (body, after) ↔
      text = body ++ ']' :: after ∧ body.all (!isBracket ·) = true := by
  induction text generalizing body with
  | nil => simp [closing?]
  | cons c text ih =>
      rw [closing?]
      split
      · rename_i hclose
        subst hclose
        cases body with
        | nil => simp [eq_comm]
        | cons d body => simp [isBracket]; grind
      · rename_i hclose
        split
        · rename_i hopen
          subst hopen
          cases body with
          | nil => simp
          | cons d body => simp [isBracket]; grind
        · rename_i hopen
          cases body with
          | nil => simp [hclose]
          | cons d body => simp [ih, isBracket]; grind

theorem closing?_eq_none_iff : closing? text = none ↔ text.find? isBracket ≠ some ']' := by
  induction text with
  | nil => simp [closing?]
  | cons c text ih =>
      rw [closing?]
      split
      · rename_i hclose
        subst hclose
        simp [isBracket]
      · rename_i hclose
        split
        · rename_i hopen
          subst hopen
          simp [isBracket]
        · rename_i hopen
          have hc : isBracket c = false := by simp [isBracket, hclose, hopen]
          rw [Option.map_eq_none_iff, ih, List.find?_cons_of_neg (by simp [hc])]

theorem closing?_eq (text : List Char) :
    (match text.drop (text.takeWhile fun d => d != ']' && d != '[').length with
      | ']' :: after => some (text.takeWhile (fun d => d != ']' && d != '['), after)
      | _ => none) = closing? text := by
  induction text with
  | nil => rfl
  | cons d text ih =>
      rw [closing?]
      by_cases hclose : d = ']'
      · subst hclose
        rfl
      · by_cases hopen : d = '['
        · subst hopen
          rfl
        · rw [if_neg hclose, if_neg hopen, List.takeWhile_cons_of_pos (by simp [hclose, hopen]),
            List.length_cons, List.drop_succ_cons, ← ih]
          generalize text.drop _ = remaining
          rcases remaining with _ | ⟨e, after⟩
          · rfl
          · by_cases he : e = ']'
            · subst he
              rfl
            · simp [he]

theorem tagAfter?_cons (c : Char) (text : List Char) :
    tagAfter? (c :: text) =
      if opensTag c then (closing? text).map fun (body, after) => (c :: body, after) else none := by
  rw [tagAfter?, ← closing?_eq]
  cases opensTag c with
  | false => rfl
  | true =>
      simp only [Bool.not_true, Bool.false_eq_true, if_false, if_true]
      split <;> simp_all

/-- What begins a tag is no tag if it cannot begin one, or if no closing bracket comes next. -/
theorem tagAfter?_cons_eq_none_iff :
    tagAfter? (c :: text) = none ↔ opensTag c = false ∨ text.find? isBracket ≠ some ']' := by
  rw [tagAfter?_cons, ← closing?_eq_none_iff]
  cases opensTag c <;> simp

theorem tagAfter?_eq_some_iff :
    tagAfter? text = some (tag, after) ↔ text = tag ++ ']' :: after ∧ isTag tag = true := by
  cases text with
  | nil => cases tag <;> simp [tagAfter?]
  | cons c text =>
      rw [tagAfter?_cons]
      constructor
      · intro h
        obtain ⟨hopens, h⟩ := Option.ite_none_right_eq_some.1 h
        obtain ⟨⟨body, _⟩, hclosing, heq⟩ := Option.map_eq_some_iff.1 h
        obtain ⟨rfl, rfl⟩ := Prod.mk.inj heq
        obtain ⟨rfl, hbody⟩ := closing?_eq_some_iff.1 hclosing
        exact ⟨rfl, by rw [isTag, hopens, hbody]; rfl⟩
      · rintro ⟨heq, htag⟩
        cases tag with
        | nil => cases htag
        | cons d body =>
            obtain ⟨rfl, htext⟩ := List.cons.inj heq
            rw [isTag, Bool.and_eq_true] at htag
            rw [if_pos htag.1, closing?_eq_some_iff.2 ⟨htext, htag.2⟩, Option.map_some]

theorem tagHere?_nil : tagHere? [] = none := rfl

theorem tagHere?_slash (text : List Char) :
    tagHere? ('\\' :: text) = (tagHere? text).map fun found => (found.1 + 1, found.2) := by
  rw [tagHere?, tagHere?, List.takeWhile_cons_of_pos rfl, List.length_cons, List.drop_succ_cons]
  split
  · rw [Option.map_map]
    rfl
  · rfl

theorem tagHere?_bracket (text : List Char) :
    tagHere? ('[' :: text) = (tagAfter? text).map (0, ·) := rfl

theorem tagHere?_of_plain (h : Plain c) (rest : List Char) : tagHere? (c :: rest) = none := by
  have hslashes : ((c :: rest).takeWhile (· == '\\')).length = 0 := by
    rw [List.takeWhile_cons_of_neg (by simpa using h.2), List.length_nil]
  rw [tagHere?, hslashes, List.drop_zero]
  split
  · rename_i heq
    exact absurd (List.cons.inj heq).1 h.1
  · rfl

/-- A tag stands behind backslashes and between brackets. -/
theorem tagHere?_eq_some_iff :
    tagHere? text = some (slashes, tag, after) ↔
      text = List.replicate slashes '\\' ++ '[' :: (tag ++ ']' :: after) ∧ isTag tag = true := by
  induction text generalizing slashes with
  | nil => simp [tagHere?_nil]
  | cons c text ih =>
      by_cases hslash : c = '\\'
      · subst hslash
        rw [tagHere?_slash]
        cases slashes with
        | zero => simp
        | succ slashes => simp [List.replicate_succ, ← ih]
      · by_cases hbracket : c = '['
        · subst hbracket
          rw [tagHere?_bracket]
          cases slashes with
          | zero => simp [tagAfter?_eq_some_iff]
          | succ slashes => simp [List.replicate_succ]
        · rw [tagHere?_of_plain ⟨hbracket, hslash⟩]
          cases slashes <;> simp [List.replicate_succ, hslash, hbracket]

/-! ## Steps of reading -/

/-- Inside open tags a text can be read in any number of steps that is large enough. -/
def Readable (tags : List OpenTag) (text : List Char) : Prop :=
  ∀ fuel, text.length < fuel → (readFrom fuel tags text).isOk = true

theorem readable_nil : Readable tags [] := by
  rintro (_ | fuel) hfuel
  · cases hfuel
  · rfl

/-- A character that begins no tag stands for itself, but a backslash takes a bracket along. -/
theorem readable_cons (h : tagHere? (c :: text) = none) (htext : Readable tags text)
    (hbracket : c = '\\' → ∀ rest, text = '[' :: rest → Readable tags rest) :
    Readable tags (c :: text) := by
  rintro (_ | fuel) hfuel
  · cases hfuel
  rw [List.length_cons, Nat.succ_lt_succ_iff] at hfuel
  unfold readFrom
  simp only [h]
  split
  · rename_i rest
    rw [isOk_bind_pure]
    apply hbracket rfl rest rfl
    rw [List.length_cons] at hfuel
    omega
  · rw [isOk_bind_pure]
    exact htext fuel hfuel

theorem readable_of_plain (h : Plain c) (htext : Readable tags text) : Readable tags (c :: text) :=
  readable_cons (tagHere?_of_plain h text) htext fun hc => absurd hc h.2

/-- Plain text does not matter. -/
theorem readable_append (h : ∀ c ∈ plain, Plain c) (hrest : Readable tags rest) :
    Readable tags (plain ++ rest) := by
  induction plain with
  | nil => exact hrest
  | cons c plain ih =>
      apply readable_of_plain (h c List.mem_cons_self)
      exact ih fun d hd => h d (List.mem_cons_of_mem c hd)

/-- The tags that are open behind a tag. -/
def enter (tags : List OpenTag) : (tag : List Char) → Except MarkupError (List OpenTag)
  | '/' :: name =>
    let name := Text.trim (Text.upTo '=' name)
    close (if name.isEmpty then "" else nameOf name) tags
  | tag => pure (⟨nameOf tag, .ofTag tag⟩ :: tags)

theorem length_after_lt (h : tagHere? text = some (slashes, tag, after)) :
    after.length < text.length := by
  rw [(tagHere?_eq_some_iff.1 h).1]
  simp only [List.length_append, List.length_cons]
  omega

/-- A tag behind an odd number of backslashes is text. -/
theorem readable_of_odd (h : tagHere? text = some (slashes, tag, after)) (hodd : slashes % 2 = 1)
    (hafter : Readable tags after) : Readable tags text := by
  rintro (_ | fuel) hfuel
  · cases hfuel
  have hlength := length_after_lt h
  cases text with
  | nil => cases h
  | cons c text =>
      unfold readFrom
      simp only [h, hodd, if_true]
      rw [isOk_bind_pure]
      exact hafter fuel (by omega)

/-- Any other tag is entered. -/
theorem readFrom_of_even (h : tagHere? text = some (slashes, tag, after)) (heven : slashes % 2 = 0)
    (fuel : Nat) :
    readFrom (fuel + 1) tags text =
      enter tags tag >>= fun inside => readFrom fuel inside after >>= fun shown =>
        pure (styled tags (List.replicate (slashes / 2) '\\') ++ shown) := by
  cases text with
  | nil => cases h
  | cons c text =>
      conv_lhs => unfold readFrom
      simp only [h, heven]
      rw [if_neg (by decide)]
      split
      · rfl
      · rename_i hopening
        rw [enter]
        exact hopening

theorem readable_of_even (h : tagHere? text = some (slashes, tag, after)) (heven : slashes % 2 = 0)
    (hinside : enter tags tag = .ok inside) (hafter : Readable inside after) :
    Readable tags text := by
  rintro (_ | fuel) hfuel
  · cases hfuel
  have hlength := length_after_lt h
  rw [readFrom_of_even h heven, hinside]
  exact (isOk_bind_pure _ _).trans (hafter fuel (by omega))

/-! ## Escaped text -/

theorem escapeTags_congr {fuel fuel' : Nat} (h : text.length < fuel) (h' : text.length < fuel') :
    escapeTags fuel text = escapeTags fuel' text := by
  induction fuel generalizing fuel' text with
  | zero => cases h
  | succ fuel ih =>
      obtain ⟨fuel', rfl⟩ := Nat.exists_eq_add_one.2 (Nat.zero_lt_of_lt h')
      cases text with
      | nil => rfl
      | cons c text =>
          rw [List.length_cons, Nat.succ_lt_succ_iff] at h h'
          rw [escapeTags, escapeTags]
          split
          · rename_i slashes tag after hhere
            have hlength := length_after_lt hhere
            rw [List.length_cons] at hlength
            rw [ih (show after.length < fuel by omega) (show after.length < fuel' by omega)]
          · rw [ih h h']

/-- A text with backslashes in front of what would be read as a tag. -/
def escaped (text : List Char) : List Char := escapeTags (text.length + 1) text

theorem escaped_of_tag (h : tagHere? text = some (slashes, tag, after)) :
    escaped text =
      List.replicate (2 * slashes + 1) '\\' ++ '[' :: (tag ++ ']' :: escaped after) := by
  have hlength := length_after_lt h
  cases text with
  | nil => cases h
  | cons c text =>
      rw [escaped, escapeTags, h]
      simp only
      rw [escaped, escapeTags_congr hlength (Nat.lt_succ_self after.length)]

theorem escaped_cons (h : tagHere? (c :: text) = none) :
    escaped (c :: text) = c :: escaped text := by
  rw [escaped, escapeTags, h]
  rfl

/-- Induction on what is escaped: a tag with the backslashes in front of it, or a character. -/
@[elab_as_elim]
theorem tag_induction {motive : List Char → Prop} (nil : motive [])
    (tag : ∀ {text slashes tag after}, tagHere? text = some (slashes, tag, after) → motive after →
      motive text)
    (char : ∀ {c text}, tagHere? (c :: text) = none → motive text → motive (c :: text))
    (text : List Char) : motive text := by
  generalize hlength : text.length = length
  induction length using Nat.strongRecOn generalizing text with
  | _ length ih =>
      subst hlength
      cases text with
      | nil => exact nil
      | cons c text =>
          cases hhere : tagHere? (c :: text) with
          | none => exact char hhere (ih text.length (Nat.lt_succ_self _) text rfl)
          | some found =>
              obtain ⟨slashes, name, after⟩ := found
              exact tag hhere (ih after.length (length_after_lt hhere) after rfl)

theorem find?_replicate_append (count : Nat) (text : List Char) :
    (List.replicate count '\\' ++ text).find? isBracket = text.find? isBracket := by
  induction count with
  | zero => rfl
  | succ count ih => rw [List.replicate_succ, List.cons_append, List.find?_cons_of_neg (by decide), ih]

/-- Escaping brings no brackets and takes none away. -/
theorem find?_escaped_append (text rest : List Char) :
    (escaped text ++ rest).find? isBracket = (text ++ rest).find? isBracket := by
  induction text using tag_induction with
  | nil => rfl
  | tag hhere _ =>
      rw [escaped_of_tag hhere, (tagHere?_eq_some_iff.1 hhere).1, List.append_assoc,
        List.append_assoc, find?_replicate_append, find?_replicate_append]
      rfl
  | char hhere ih => rw [escaped_cons hhere, List.cons_append, List.cons_append, List.find?_cons,
      List.find?_cons, ih]

/-- What stands behind a text ends no tag that begins there. -/
structure Closes (rest : List Char) : Prop where
  noTag : tagAfter? rest = none
  noBracket : rest.find? isBracket ≠ some ']'

theorem Closes.find?_append_ne (h : Closes rest) (htext : text.find? isBracket ≠ some ']') :
    (text ++ rest).find? isBracket ≠ some ']' := by
  rw [List.find?_append]
  cases hfind : text.find? isBracket with
  | none => exact h.noBracket
  | some bracket => rwa [hfind] at htext

/-- What begins no tag begins none when it is escaped, either. -/
theorem tagAfter?_escaped (h : tagAfter? text = none) (hrest : Closes rest) :
    tagAfter? (escaped text ++ rest) = none := by
  cases text with
  | nil => exact hrest.noTag
  | cons c text =>
      cases hhere : tagHere? (c :: text) with
      | some found =>
          obtain ⟨slashes, tag, after⟩ := found
          rw [escaped_of_tag hhere, List.replicate_succ]
          exact tagAfter?_cons_eq_none_iff.2 (.inl rfl)
      | none =>
          rw [escaped_cons hhere, List.cons_append, tagAfter?_cons_eq_none_iff, find?_escaped_append]
          exact (tagAfter?_cons_eq_none_iff.1 h).imp_right hrest.find?_append_ne

theorem tagHere?_escaped (h : tagHere? text = none) (hrest : Closes rest)
    (hslashes : ∀ count, text ≠ List.replicate count '\\') :
    tagHere? (escaped text ++ rest) = none := by
  induction text with
  | nil => exact absurd rfl (hslashes 0)
  | cons c text ih =>
      rw [escaped_cons h, List.cons_append]
      by_cases hslash : c = '\\'
      · subst hslash
        rw [tagHere?_slash, Option.map_eq_none_iff] at h ⊢
        apply ih h
        rintro count rfl
        exact hslashes (count + 1) rfl
      · by_cases hbracket : c = '['
        · subst hbracket
          rw [tagHere?_bracket, Option.map_eq_none_iff] at h ⊢
          exact tagAfter?_escaped h hrest
        · exact tagHere?_of_plain ⟨hbracket, hslash⟩ _

theorem tagHere?_replicate_append (count : Nat) (h : tagHere? text = none) :
    tagHere? (List.replicate count '\\' ++ text) = none := by
  induction count with
  | zero => exact h
  | succ count ih => rw [List.replicate_succ, List.cons_append, tagHere?_slash, ih, Option.map_none]

theorem tagHere?_replicate (count : Nat) : tagHere? (List.replicate count '\\') = none := by
  rw [← List.append_nil (List.replicate count '\\')]
  exact tagHere?_replicate_append count tagHere?_nil

theorem escaped_replicate (count : Nat) :
    escaped (List.replicate count '\\') = List.replicate count '\\' := by
  induction count with
  | zero => rfl
  | succ count ih =>
      have hhere := tagHere?_replicate (count + 1)
      rw [List.replicate_succ] at hhere ⊢
      rw [escaped_cons hhere, ih]

/-- Escaped text can be read if what follows it can be read behind any number of backslashes. -/
theorem readable_escaped_append (hrest : Closes rest)
    (hslashes : ∀ count, Readable tags (List.replicate count '\\' ++ rest)) (text : List Char) :
    Readable tags (escaped text ++ rest) := by
  -- A backslash can take the next character along, so what follows that one can be read, too.
  suffices h : Readable tags (escaped text ++ rest) ∧
      ∀ c after, text = c :: after → tagHere? text = none → Readable tags (escaped after ++ rest) from
    h.1
  induction text using tag_induction with
  | nil => exact ⟨hslashes 0, nofun⟩
  | tag hhere ih =>
      refine ⟨?_, fun c after _ hnone => by rw [hhere] at hnone; cases hnone⟩
      rw [escaped_of_tag hhere, List.append_assoc, List.cons_append, List.append_assoc]
      refine readable_of_odd (tagHere?_eq_some_iff.2 ⟨rfl, (tagHere?_eq_some_iff.1 hhere).2⟩) ?_ ih.1
      omega
  | @char c text hhere ih =>
      refine ⟨?_, fun d after heq _ => (List.cons.inj heq).2 ▸ ih.1⟩
      by_cases hall : ∃ count, c :: text = List.replicate count '\\'
      · obtain ⟨count, hcount⟩ := hall
        rw [hcount, escaped_replicate]
        exact hslashes count
      · have hnone := tagHere?_escaped hhere hrest (not_exists.1 hall)
        rw [escaped_cons hhere] at hnone ⊢
        apply readable_cons hnone ih.1
        rintro rfl after hafter
        rw [tagHere?_slash, Option.map_eq_none_iff] at hhere
        cases text with
        | nil => exact (hall ⟨1, rfl⟩).elim
        | cons d text =>
            rw [escaped_cons hhere] at hafter
            obtain ⟨rfl, rfl⟩ := List.cons.inj hafter
            exact ih.2 _ text rfl hhere

theorem closes_nil : Closes [] := ⟨rfl, nofun⟩

theorem Closes.append (hrest : Closes rest) (h : ∀ c ∈ plain, !isBracket c) : Closes (plain ++ rest) where
  noTag := by
    cases plain with
    | nil => exact hrest.noTag
    | cons c plain =>
        rw [List.cons_append, tagAfter?_cons_eq_none_iff]
        refine .inr (hrest.find?_append_ne ?_)
        rw [List.find?_eq_none.2 fun d hd => by simpa using h d (List.mem_cons_of_mem c hd)]
        nofun
  noBracket := by
    apply hrest.find?_append_ne
    rw [List.find?_eq_none.2 fun d hd => by simpa using h d hd]
    nofun

theorem closeEnd_eq (text : List Char) :
    ∃ count, closeEnd text = text ++ List.replicate count '\\' := by
  rw [closeEnd]
  split
  · exact ⟨0, by simp⟩
  · exact ⟨1, rfl⟩
  · exact ⟨0, by simp⟩

/-- Behind escaped text there can be anything that ends no tag and can be read behind any number of
backslashes. -/
theorem readable_escape_append (hcloses : Closes rest)
    (hrest : ∀ count, Readable tags (List.replicate count '\\' ++ rest)) (text : String) :
    Readable tags ((escape text).toList ++ rest) := by
  obtain ⟨count, hcount⟩ := closeEnd_eq (escaped text.toList)
  have hescape : (escape text).toList = escaped text.toList ++ List.replicate count '\\' := by
    rw [← hcount, escape, String.toList_ofList]
    rfl
  rw [hescape, List.append_assoc]
  refine readable_escaped_append (hcloses.append ?_) (fun more => ?_) text.toList
  · exact fun c hc => by rw [List.eq_of_mem_replicate hc]; rfl
  · rw [← List.append_assoc, List.replicate_append_replicate]
    exact hrest _

/-! ## Text without brackets -/

/-- Backslashes in front of a plain character stand for themselves. -/
theorem readable_slashes (hc : Plain c) (h : Readable tags rest) (count : Nat) :
    Readable tags (List.replicate count '\\' ++ c :: rest) := by
  have hhere : tagHere? (c :: rest) = none := tagHere?_of_plain hc rest
  induction count with
  | zero => exact readable_of_plain hc h
  | succ count ih =>
      rw [List.replicate_succ]
      refine readable_cons (tagHere?_replicate_append (count + 1) hhere) ih fun _ after hafter => ?_
      cases count with
      | zero => exact absurd (List.cons.inj hafter).1 hc.1
      | succ => cases (List.cons.inj hafter).1

/-- In a text without brackets no tag begins, but backslashes at its end matter to what follows it. -/
theorem readable_text_append (h : '[' ∉ text)
    (hrest : ∀ count, Readable tags (List.replicate count '\\' ++ rest)) (count : Nat) :
    Readable tags (List.replicate count '\\' ++ (text ++ rest)) := by
  induction text generalizing count with
  | nil => exact hrest count
  | cons c text ih =>
      rw [List.mem_cons, not_or] at h
      by_cases hslash : c = '\\'
      · subst hslash
        rw [List.cons_append, List.append_cons, ← List.replicate_succ']
        exact ih h.2 (count + 1)
      · exact readable_slashes ⟨Ne.symm h.1, hslash⟩ (ih h.2 0) count

theorem readable_replicate (count : Nat) : Readable tags (List.replicate count '\\') := by
  induction count with
  | zero => exact readable_nil
  | succ count ih =>
      refine readable_cons (List.replicate_succ ▸ tagHere?_replicate (count + 1)) ih fun _ after hafter => ?_
      cases count with
      | zero => cases hafter
      | succ => cases (List.cons.inj hafter).1

theorem readable_replicate_append_nil (count : Nat) : Readable tags (List.replicate count '\\' ++ []) := by
  rw [List.append_nil]
  exact readable_replicate count

theorem readable_text (h : '[' ∉ text) : Readable tags text := by
  have htext : Readable tags (text ++ []) := readable_text_append h readable_replicate_append_nil 0
  rwa [List.append_nil] at htext

end EnvAudit.Terminal.Markup
