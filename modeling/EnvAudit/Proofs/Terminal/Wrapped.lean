import EnvAudit.Libraries
import EnvAudit.Proofs.Result
import EnvAudit.Proofs.Terminal.Lines
import EnvAudit.Proofs.Text.Blank
import Mathlib.Data.List.SplitBy

/-!
# What a screen keeps

A text is cut into words and put on lines without losing anything; only then blanks at the ends of lines are
dropped and lines that are still too wide are cut off.  A text that begins with no blank is printed with the
character that it begins with, so a screen does what is asked of a terminal.
-/

namespace EnvAudit

namespace Terminal

namespace StyledText

variable {c : StyledChar} {text : StyledText} {limit : Nat}

/-! ## Words and lines -/

theorem flatten_wordsFrom (inBlanks : Bool) (word line : StyledText) :
    (wordsFrom inBlanks word line).flatten = word.reverse ++ line := by
  induction line generalizing inBlanks word with
  | nil => simp [wordsFrom]
  | cons c line ih =>
      rw [wordsFrom]
      split
      · simp [ih]
      · split <;> simp [ih]

theorem flatten_words (line : StyledText) : (words line).flatten = line := flatten_wordsFrom false [] line

theorem flatten_chop (limit used : Nat) (piece text : StyledText) :
    (chop limit used piece text).flatten = piece.reverse ++ text := by
  induction text generalizing used piece with
  | nil => simp [chop]
  | cons c text ih =>
      rw [chop]
      split <;> simp [ih]

theorem flatten_dropLast_append (pieces : List StyledText) :
    pieces.dropLast.flatten ++ pieces.getLast?.getD [] = pieces.flatten := by
  rcases List.eq_nil_or_concat pieces with rfl | ⟨front, last, rfl⟩
  · rfl
  · simp

theorem flatten_place (limit : Nat) (line : StyledText) (used : Nat) (words : List StyledText) :
    (place limit line used words).flatten = line ++ words.flatten := by
  have hbefore : ∀ line : StyledText, (if line.isEmpty then [] else [line]).flatten = line := by
    intro line
    cases line <;> simp
  induction words generalizing line used with
  | nil => simp [place]
  | cons word words ih =>
      rw [place]
      split
      · simp [ih]
      · dsimp only
        split
        · rw [List.flatten_append, List.flatten_append, ih, hbefore, List.append_assoc, ← List.append_assoc _ _
            words.flatten, flatten_dropLast_append, flatten_chop]
          rfl
        · rw [List.flatten_append, ih, hbefore]
          rfl

/-! ## The beginning of a text -/

theorem exists_cons_mem_of_flatten {lines : List StyledText} (h : lines.flatten = c :: text) :
    ∃ line, c :: line ∈ lines := by
  induction lines with
  | nil => cases h
  | cons line lines ih =>
      cases line with
      | nil =>
          obtain ⟨line, hline⟩ := ih h
          exact ⟨line, List.mem_cons_of_mem _ hline⟩
      | cons first line =>
          obtain ⟨rfl, -⟩ := List.cons.inj h
          exact ⟨line, List.mem_cons_self⟩

theorem exists_trimEnd_cons (hc : isBlank c = false) (text : StyledText) :
    ∃ kept, trimEnd (c :: text) = c :: kept := by
  have hdrop : ((c :: text).reverse.dropWhile isBlank) = text.reverse.dropWhile isBlank ++ [c] := by
    rw [List.reverse_cons, List.dropWhile_append]
    split <;> simp_all
  exact ⟨_, by rw [trimEnd, hdrop, List.reverse_append]; rfl⟩

theorem exists_trimExcess_cons (hc : isBlank c = false) (limit : Nat) (text : StyledText) :
    ∃ kept, trimExcess limit (c :: text) = c :: kept := by
  obtain ⟨kept, hkept⟩ := exists_trimEnd_cons hc text
  have hcount : ∃ count, (c :: text).length -
      min ((c :: text).length - (trimEnd (c :: text)).length) ((c :: text).length - limit) = count + 1 := by
    refine Nat.exists_eq_succ_of_ne_zero ?_
    rw [hkept, List.length_cons, List.length_cons]
    omega
  obtain ⟨count, hcount⟩ := hcount
  exact ⟨text.take count, by rw [trimExcess, hcount, List.take_succ_cons]⟩

theorem exists_crop_cons (hwidth : charWidth c.1 ≤ limit) (text : StyledText) :
    ∃ kept, crop limit (c :: text) = c :: kept := by
  rw [crop]
  split
  · exact ⟨text, rfl⟩
  · rw [chars, List.map_cons, cut, if_pos hwidth, List.map_cons]
    exact ⟨_, rfl⟩

/-- A text that begins with no blank is wrapped with its beginning at the beginning of a line. -/
theorem exists_cons_mem_wrap (hc : isBlank c = false) (hwidth : charWidth c.1 ≤ limit) (text : StyledText) :
    ∃ line, c :: line ∈ wrap limit (c :: text) := by
  have hlines : ∃ line more, lines (c :: text) = (c :: line) :: more := by
    rw [lines, if_neg (by rintro hbreak; rw [isBlank, hbreak] at hc; cases hc)]
    split
    · exact ⟨[], [], rfl⟩
    · exact ⟨_, _, rfl⟩
  obtain ⟨line, more, hlines⟩ := hlines
  have htab : c.1 ≠ '\t' := by
    rintro htab
    rw [isBlank, htab] at hc
    cases hc
  have hexpand : expandTabs 0 (c :: line) = c :: expandTabs (0 + charWidth c.1) line := by
    obtain ⟨_, _⟩ := c
    rw [expandTabs, if_neg htab]
  have hplaced : (place limit [] 0 (words (expandTabs 0 (c :: line)))).flatten =
      c :: expandTabs (0 + charWidth c.1) line := by
    rw [flatten_place, flatten_words, hexpand]
    rfl
  obtain ⟨placed, hmem⟩ := exists_cons_mem_of_flatten hplaced
  obtain ⟨trimmed, htrimmed⟩ := exists_trimExcess_cons hc limit placed
  obtain ⟨kept, hkept⟩ := exists_crop_cons hwidth trimmed
  refine ⟨kept, ?_⟩
  rw [wrap, hlines, List.flatMap_cons, List.mem_append]
  refine .inl (List.mem_map.2 ⟨_, hmem, ?_⟩)
  rw [htrimmed, hkept]

end StyledText

/-! ## What is printed -/

theorem Palette.mem_showRun {c : Char} {text : List Char} (palette : Palette) (style : Style) (h : c ∈ text) :
    c ∈ palette.showRun style text := by
  rw [showRun]
  split
  · exact h
  · simp [h]

theorem Palette.mem_showLine {c : StyledChar} {line : StyledText} (palette : Palette) (h : c ∈ line) :
    c.1 ∈ palette.showLine line := by
  rw [← List.flatten_splitBy (fun a b => a.2 == b.2) line] at h
  obtain ⟨run, hrun, hc⟩ := List.mem_flatten.1 h
  refine List.mem_append_left _ (List.mem_flatMap.2 ⟨run, hrun, ?_⟩)
  exact palette.mem_showRun _ (List.mem_map_of_mem hc)

/-- A text that begins with no blank is printed with its beginning. -/
theorem mem_showLines_wrap {c : StyledChar} {limit : Nat} (palette : Palette)
    (hc : StyledText.isBlank c = false) (hwidth : charWidth c.1 ≤ limit) (text : StyledText) :
    c.1 ∈ palette.showLines (StyledText.wrap limit (c :: text)) := by
  obtain ⟨line, hline⟩ := StyledText.exists_cons_mem_wrap hc hwidth text
  exact List.mem_flatMap.2 ⟨_, hline, palette.mem_showLine List.mem_cons_self⟩

namespace Markup

variable {tags : List OpenTag} {word rest : List Char} {c : Char} {text : StyledText}

theorem styled_cons (hkept : isDropped c = false) (tags : List OpenTag) (rest : List Char) :
    styled tags (c :: rest) = (c, styleIn tags) :: styled tags rest := by
  rw [styled, List.filter_cons_of_pos (by rw [hkept]; rfl)]
  rfl

theorem exists_cons_of_readFrom (hplain : Plain c) (hkept : isDropped c = false) {fuel : Nat}
    (h : readFrom fuel tags (c :: rest) = .ok text) : ∃ more, text = (c, styleIn tags) :: more := by
  cases fuel with
  | zero => exact ⟨_, (Except.ok.inj h).symm.trans (styled_cons hkept tags rest)⟩
  | succ fuel =>
      have hread : readFrom (fuel + 1) tags (c :: rest) =
          readFrom fuel tags rest >>= fun shown => pure (styled tags [c] ++ shown) := by
        conv_lhs => unfold readFrom
        simp only [tagHere?_of_plain hplain rest]
        split
        · exact absurd rfl hplain.2
        · rfl
      rw [hread] at h
      obtain ⟨shown, -, hshown⟩ := bind_eq_ok_iff.1 h
      refine ⟨shown, (Except.ok.inj hshown).symm.trans ?_⟩
      rw [styled_cons hkept]
      rfl

/-- What is read of a tagged text begins as the text does. -/
theorem exists_cons_of_read_tagged (hword : TagWord word) (hplain : Plain c) (hkept : isDropped c = false)
    (h : read (String.ofList ('[' :: (word ++ ']' :: c :: rest))) = .ok text) :
    ∃ style more, text = (c, style) :: more := by
  have hhere : tagHere? ('[' :: (word ++ ']' :: c :: rest)) = some (0, word, c :: rest) :=
    tagHere?_eq_some_iff.2 ⟨rfl, hword.tag⟩
  rw [read, String.toList_ofList, readFrom_of_even hhere rfl, hword.opens []] at h
  generalize ('[' :: (word ++ ']' :: c :: rest)).length = fuel at h
  obtain ⟨opened, hopened, h⟩ := bind_eq_ok_iff.1 h
  obtain ⟨shown, hinside, hshown⟩ := bind_eq_ok_iff.1 h
  obtain rfl := Except.ok.inj hopened
  obtain rfl := Except.ok.inj hshown
  obtain ⟨more, rfl⟩ := exists_cons_of_readFrom hplain hkept hinside
  exact ⟨_, more, rfl⟩

end Markup

/-- Letters take a cell and stand for themselves. -/
theorem letter_kept {c : Char} (h : c.isAlpha = true) :
    Markup.Plain c ∧ Markup.isDropped c = false ∧ Text.isBlank c = false ∧ charWidth c ≤ 1 := by
  have hrange : 65 ≤ c.toNat ∧ c.toNat ≤ 90 ∨ 97 ≤ c.toNat ∧ c.toNat ≤ 122 := by
    rw [Text.isAlpha_eq, Bool.or_eq_true, Text.isUpper_iff_toNat, Text.isLower_iff_toNat] at h
    exact h
  have hne : ∀ d : Char, d.toNat < 65 ∨ (90 < d.toNat ∧ d.toNat < 97) → c ≠ d := by
    rintro d hd rfl
    omega
  refine ⟨⟨hne _ (by decide), hne _ (by decide)⟩, ?_, Text.isBlank_of_isAlpha h, ?_⟩
  · simp [Markup.isDropped, hne]
  · rw [charWidth, if_neg (by omega), if_pos (by omega)]

/-- A screen does what is asked of a terminal. -/
theorem lawfulConsole_screen {width : Nat} (hwidth : 0 < width) (palette : Palette) :
    @LawfulConsole (screen width palette) :=
  letI := screen width palette
  { isOk_print := by
      intro line noColor h
      have hread : (Markup.read line).isOk = true := Markup.readable_of_printable h _ (Nat.lt_succ_self _)
      obtain ⟨text, htext⟩ := isOk_iff.1 hread
      change ((Markup.read line).map _).isOk = true
      rw [htext]
      rfl
    mem_print := by
      intro style text c noColor printed hstyle hc hletter h
      obtain ⟨hplain, hkept, hblank, hcell⟩ := letter_kept hletter
      obtain ⟨rest, hrest⟩ := List.head?_eq_some_iff.1 hc
      have hline : s!"[{style}]{text}" = String.ofList ('[' :: (style.toList ++ ']' :: c :: rest)) := by
        apply String.toList_injective
        change ("[" ++ style ++ "]" ++ text).toList = _
        simp [hrest]
      rw [hline] at h
      obtain ⟨shown, hread, rfl⟩ := map_eq_ok_iff.1 h
      obtain ⟨found, more, rfl⟩ :=
        Markup.exists_cons_of_read_tagged (Markup.tagWord_of_mem_styles hstyle) hplain hkept hread
      exact mem_showLines_wrap (c := (c, found)) _ hblank (hcell.trans hwidth) more }

end Terminal

namespace Libraries

scoped instance : @Terminal.LawfulConsole terminal := Terminal.lawfulConsole_screen (by decide) .none

end Libraries

end EnvAudit
