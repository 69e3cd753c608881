import EnvAudit.Proofs.Terminal.Markup
import EnvAudit.Proofs.Terminal.Printable
import EnvAudit.Terminal.Screen

/-!
# Lines of markup

A printable line can be read inside of any open tags.  Each of its parts may at worst make the tag behind it
text, so that a style is left open.
-/

namespace EnvAudit.Terminal.Markup

variable {word text rest : List Char} {tags : List OpenTag} {line style inner : String}
  {width : Nat} {palette : Palette}

/-! ## Tags of styles -/

/-- A word that can be a tag, and the tag that it closes. -/
structure TagWord (word : List Char) : Prop where
  tag : isTag word = true
  opens (tags : List OpenTag) : enter tags word = .ok (⟨nameOf word, .ofTag word⟩ :: tags)
  closes (tags : List OpenTag) : enter (⟨nameOf word, .ofTag word⟩ :: tags) ('/' :: word) = .ok tags

/-- The tag that closes a word. -/
def closingOf (word : List Char) : List Char := '[' :: ('/' :: word ++ [']'])

/-- A tag is closed by its own name if this is all of it, whatever it is called for short. -/
theorem tagWord_of_trim (htag : isTag word = true) (hslash : word.head? ≠ some '/')
    (htrim : Text.trim (Text.upTo '=' word) = word) : TagWord word where
  tag := htag
  opens tags := by
    cases word with
    | nil => cases htag
    | cons c body =>
        rw [enter]
        · rfl
        · rintro name heq
          exact hslash (congrArg List.head? heq)
  closes tags := by
    have hne : word.isEmpty = false := by
      cases word with
      | nil => cases htag
      | cons => rfl
    rw [enter, htrim, hne, if_neg (by decide), close]
    split
    · rfl
    · rw [if_pos (by simp)]
      simp

theorem tagWord_of_mem_styles (h : style ∈ styles) : TagWord style.toList := by
  have hall : ∀ style ∈ styles, isTag style.toList = true ∧ style.toList.head? ≠ some '/' ∧
      Text.trim (Text.upTo '=' style.toList) = style.toList := by
    decide
  obtain ⟨htag, hslash, htrim⟩ := hall style h
  exact tagWord_of_trim htag hslash htrim

theorem isTag_slash (h : isTag word = true) : isTag ('/' :: word) = true := by
  cases word with
  | nil => cases h
  | cons c body =>
      rw [isTag, Bool.and_eq_true] at h
      have hc : isBracket c = false := by
        rw [← Bool.not_eq_true]
        intro hbracket
        rw [isBracket, Bool.or_eq_true, beq_iff_eq, beq_iff_eq] at hbracket
        rcases hbracket with rfl | rfl <;> exact absurd h.1 (by decide)
      rw [isTag, List.all_cons, hc, h.2]
      rfl

theorem closes_closingOf_append (word rest : List Char) : Closes (closingOf word ++ rest) where
  noTag := tagAfter?_cons_eq_none_iff.2 (.inl rfl)
  noBracket h := absurd (Option.some.inj h) (by decide)

/-! ## Parts of a line -/

theorem readable_opening (hword : TagWord word) (h : Readable (⟨nameOf word, .ofTag word⟩ :: tags) rest) :
    Readable tags ('[' :: (word ++ ']' :: rest)) := by
  have hhere : tagHere? ('[' :: (word ++ ']' :: rest)) = some (0, word, rest) :=
    tagHere?_eq_some_iff.2 ⟨rfl, hword.tag⟩
  exact readable_of_even hhere rfl (hword.opens tags) h

/-- Behind an odd number of backslashes the closing tag is text, and the tag is left open. -/
theorem readable_closing (hword : TagWord word) (hrest : ∀ tags, Readable tags rest) (count : Nat) :
    Readable (⟨nameOf word, .ofTag word⟩ :: tags)
      (List.replicate count '\\' ++ (closingOf word ++ rest)) := by
  have hhere : tagHere? (List.replicate count '\\' ++ (closingOf word ++ rest)) =
      some (count, '/' :: word, rest) :=
    tagHere?_eq_some_iff.2 ⟨by simp [closingOf], isTag_slash hword.tag⟩
  rcases Nat.mod_two_eq_zero_or_one count with heven | hodd
  · exact readable_of_even hhere heven (hword.closes tags) (hrest _)
  · exact readable_of_odd hhere hodd (hrest _)

theorem plain_of_bare (h : Bare line) : ∀ c ∈ line.toList, Plain c :=
  fun c hc => ⟨(h c hc).1, (h c hc).2.2⟩

/-- Escaped text with bare text behind it. -/
theorem readable_escape_bare {back : String} (hback : Bare back) (hcloses : Closes rest)
    (hrest : ∀ count, Readable tags (List.replicate count '\\' ++ rest)) (text : String) :
    Readable tags ((escape text).toList ++ (back.toList ++ rest)) := by
  refine readable_escape_append (hcloses.append ?_) (readable_text_append hback.notMem hrest) text
  intro c hc
  obtain ⟨hopen, hclose, -⟩ := hback c hc
  simp [isBracket, hopen, hclose]

theorem toList_tagged (style inner : String) (rest : List Char) :
    (tagged style inner).toList ++ rest =
      '[' :: (style.toList ++ ']' :: (inner.toList ++ (closingOf style.toList ++ rest))) := by
  change ("[" ++ style ++ "]" ++ inner ++ ("[/" ++ style ++ "]")).toList ++ rest = _
  simp [closingOf]

/-- Behind what stands in a style, the style is closed or left open. -/
theorem readable_inner (h : @Inner (screen width palette) inner) (hword : TagWord word)
    (hrest : ∀ tags, Readable tags rest) :
    Readable (⟨nameOf word, .ofTag word⟩ :: tags) (inner.toList ++ (closingOf word ++ rest)) := by
  have hclosing : ∀ count, Readable (⟨nameOf word, .ofTag word⟩ :: tags)
      (List.replicate count '\\' ++ (closingOf word ++ rest)) := readable_closing hword hrest
  cases h with
  | text htext => exact readable_text_append htext hclosing 0
  | escaped hfront text hback =>
      rw [String.toList_append, String.toList_append, List.append_assoc, List.append_assoc]
      apply readable_append (plain_of_bare hfront)
      exact readable_escape_bare hback (closes_closingOf_append word rest) hclosing text

/-- A printable line can be read inside of any open tags. -/
theorem readable_of_printable (h : @Printable (screen width palette) line) : Readable tags line.toList := by
  induction h generalizing tags with
  | text htext => exact readable_text htext
  | escaped text hback =>
      have hescape : Readable tags ((escape text).toList ++ (_ ++ [])) :=
        readable_escape_bare hback closes_nil readable_replicate_append_nil text
      rwa [List.append_nil, ← String.toList_append] at hescape
  | bare hfront _ ih =>
      rw [String.toList_append]
      exact readable_append (plain_of_bare hfront) ih
  | tagged hstyle hinner _ ih =>
      have hword := tagWord_of_mem_styles hstyle
      rw [String.toList_append, toList_tagged]
      exact readable_opening hword (readable_inner hinner hword fun tags => ih)

end EnvAudit.Terminal.Markup
