import EnvAudit.Identifier
import EnvAudit.Proofs.Pattern.Fenced
import EnvAudit.Proofs.Pattern.Rounds
import EnvAudit.Proofs.Text.Blank
import EnvAudit.Proofs.Text.Split

/-!
# Words of an identifier

An identifier is cut in one walk from left to right: at each separator, which is dropped, and in front
of each capital that follows a lower-case letter or digit.  To put spaces in and to split by patterns
comes to the same words.  Identifiers of ASCII characters are made up of their words: joined with
underscores, the words are found again.
-/

namespace EnvAudit

open Pattern

namespace Identifier

variable {c : Char}

/-! ## The walk from left to right -/

/-- Whether a word begins at a character, by the character in front of it. -/
def risesAt (previous : Option Char) (c : Char) : Bool := previous.any endsWord && c.isUpper

/-- The pieces of a text behind a character. -/
def piecesAfter : Option Char → List Char → List (List Char)
  | _, [] => [[]]
  | previous, c :: rest =>
    if isSeparator c then [] :: piecesAfter (some c) rest
    else if risesAt previous c then [] :: Text.consFirst c (piecesAfter (some c) rest)
    else Text.consFirst c (piecesAfter (some c) rest)

/-- The words of a text: its pieces that are not empty, in lower case. -/
def segments (text : List Char) : List (List Char) :=
  ((piecesAfter none text).filter (!·.isEmpty)).map Text.lower

/-- The text with spaces where words begin, behind a character. -/
def spaceAfter : Option Char → List Char → List Char
  | _, [] => []
  | previous, c :: rest =>
    if risesAt previous c then ' ' :: c :: spaceAfter (some c) rest
    else c :: spaceAfter (some c) rest

theorem spaceOut_cons_cons (c d : Char) (text : List Char) :
    spaceOut (c :: d :: text) =
      if risesAt (some c) d then c :: ' ' :: spaceOut (d :: text) else c :: spaceOut (d :: text) :=
  rfl

theorem spaceOut_cons (c : Char) (text : List Char) :
    spaceOut (c :: text) = c :: spaceAfter (some c) text := by
  induction text generalizing c with
  | nil => rfl
  | cons d text ih =>
      rw [spaceOut_cons_cons, ih, spaceAfter]
      split <;> rfl

theorem spaceOut_eq_spaceAfter (text : List Char) : spaceOut text = spaceAfter none text := by
  cases text with
  | nil => rfl
  | cons c text => exact spaceOut_cons c text

theorem isSeparator_of_isUpper (h : c.isUpper = true) : isSeparator c = false := by
  have hword : Text.isAsciiWord c = true := by rw [Text.isAsciiWord_eq, h]; rfl
  have hblank : Text.isBlank c = false := Text.isBlank_of_isAlpha (by rw [Text.isAlpha_eq, h]; rfl)
  have hmark : ∀ d ∈ ['_', '-'], c ≠ d := by
    rintro d hd rfl
    have hnot : ∀ d ∈ ['_', '-'], d.isUpper = false := by decide
    rw [hnot c hd] at h
    cases h
  simp [isSeparator, hblank, hmark '_' (by decide), hmark '-' (by decide)]

/-- To put spaces in and to split at separators is to cut in one walk. -/
theorem splitWhere_spaceAfter (previous : Option Char) (text : List Char) :
    Text.splitWhere isSeparator (spaceAfter previous text) = piecesAfter previous text := by
  induction text generalizing previous with
  | nil => rfl
  | cons c text ih =>
      rw [spaceAfter, piecesAfter]
      by_cases hrises : risesAt previous c = true
      · have hupper : c.isUpper = true := (Bool.and_eq_true_iff.1 hrises).2
        have hc := isSeparator_of_isUpper hupper
        rw [if_pos hrises, if_neg (by simp [hc]), if_pos hrises,
          Text.splitWhere_cons_of_pos (by decide), Text.splitWhere_cons_of_neg hc, ih]
      · rw [if_neg hrises, if_neg hrises]
        cases hc : isSeparator c with
        | true => rw [Text.splitWhere_cons_of_pos hc, ih, if_pos rfl]
        | false => rw [Text.splitWhere_cons_of_neg hc, ih, if_neg Bool.false_ne_true]

theorem wordsOf_eq_segments (text : List Char) : wordsOf text = segments text := by
  rw [wordsOf, segments, spaceOut_eq_spaceAfter, splitWhere_spaceAfter]

end Identifier

/-! ## Cutting and replacing by patterns -/

namespace Pattern

/-- What stands in front of, between and behind matches, from a place on. -/
def piecesFrom (c : Cursor) : List Match → List (List Char)
  | [] => [c.after]
  | m :: more => c.upTo m.start :: piecesFrom m.reading.cursor more

/-- A text cut at the matches of a pattern, which are dropped. -/
def cutAt (p : Pattern) (text : List Char) : List (List Char) :=
  piecesFrom (.start text) (p.allMatches text)

/-- The text from a place on, with something else for each match. -/
def replaceFrom (into : Match → List Char) (c : Cursor) : List Match → List Char
  | [] => c.after
  | m :: more => c.upTo m.start ++ into m ++ replaceFrom into m.reading.cursor more

/-- A text with something else for each match of a pattern. -/
def replaceAll (p : Pattern) (into : Match → List Char) (text : List Char) : List Char :=
  replaceFrom into (.start text) (p.allMatches text)

/-- What stands in front of the first match is left as it is. -/
theorem replaceFrom_cons {into : Match → List Char} {before after : List Char} {ch : Char}
    {index : ℕ} {found : List Match} (h : ∀ m ∈ found.head?, index < m.start.index) :
    replaceFrom into ⟨before, ch :: after, index⟩ found =
      ch :: replaceFrom into ⟨ch :: before, after, index + 1⟩ found := by
  cases found with
  | nil => rfl
  | cons m more =>
      have hlt : index < m.start.index := h m rfl
      have hsub : m.start.index - index = m.start.index - (index + 1) + 1 := by omega
      simp only [replaceFrom, Cursor.upTo, hsub, List.take_succ_cons, List.cons_append]

end Pattern

namespace Identifier

variable {c : Char} {text before after : List Char} {index : ℕ}

/-- A lower-case letter or digit in front of a capital. -/
def caseEdge : Pattern :=
  group 1 (one (.ofRanges [('a', 'z'), ('0', '9')])) ++ group 2 (one (.ofRanges [('A', 'Z')]))

/-- One or more separators. -/
def separators : Pattern := plus (CharClass.blank.union (.ofString "_-"))

/-- Both groups of a match with a space between them. -/
def spaced (m : Match) : List Char := (m.group? 1).getD [] ++ ' ' :: (m.group? 2).getD []

theorem admits_endsWord (c : Char) :
    (CharClass.ofRanges [('a', 'z'), ('0', '9')]).admits c = endsWord c := by
  rw [CharClass.admits_ofRanges, endsWord]
  simp only [List.any_cons, List.any_nil, Bool.or_false, CharClass.between_lower,
    CharClass.between_digit]

theorem admits_capital (c : Char) : (CharClass.ofRanges [('A', 'Z')]).admits c = c.isUpper := by
  rw [CharClass.admits_ofRanges]
  simp only [List.any_cons, List.any_nil, Bool.or_false, CharClass.between_upper]

theorem admits_separator (c : Char) :
    (CharClass.blank.union (.ofString "_-")).admits c = isSeparator c := by
  rw [CharClass.admits_union CharClass.blank (.ofString "_-") rfl rfl rfl, CharClass.admits_blank, CharClass.admits_ofString,
    isSeparator, Bool.or_assoc, Bool.eq_iff_iff]
  simp

theorem exists_of_mem_ends_caseEdge {r r' : Reading} (h : r' ∈ caseEdge.ends r) :
    ∃ c d rest, r.cursor.after = c :: d :: rest ∧ endsWord c = true ∧ d.isUpper = true := by
  obtain ⟨_, hfirst, hsecond⟩ := List.mem_flatMap.1 h
  obtain ⟨_, hlow, rfl⟩ := List.mem_map.1 hfirst
  obtain ⟨_, hcapital, rfl⟩ := List.mem_map.1 hsecond
  obtain ⟨-, _, ⟨c, hc, rfl⟩, rest, hafter, rfl⟩ := (reads_one _ _ _).1 hlow
  obtain ⟨-, _, ⟨d, hd, rfl⟩, rest', hafter', rfl⟩ := (reads_one _ _ _).1 hcapital
  rw [admits_endsWord] at hc
  rw [admits_capital] at hd
  have hrest : rest = [d] ++ rest' := hafter'
  subst hrest
  exact ⟨c, d, rest', hafter, hc, hd⟩

theorem matchAt?_caseEdge_eq_none
    (h : ∀ c d rest, after = c :: d :: rest → risesAt (some c) d = false) :
    caseEdge.matchAt? ⟨before, after, index⟩ = none := by
  rw [matchAt?_eq, Option.map_eq_none_iff, List.head?_eq_none_iff, List.eq_nil_iff_forall_not_mem]
  intro r' hmem
  obtain ⟨c, d, rest, hafter, hc, hd⟩ := exists_of_mem_ends_caseEdge hmem
  have hnot := h c d rest hafter
  rw [risesAt, Option.any_some, hc, hd] at hnot
  cases hnot

theorem matchAt?_caseEdge {d : Char} {rest : List Char} (h : risesAt (some c) d = true) :
    ∃ m, caseEdge.matchAt? ⟨before, c :: d :: rest, index⟩ = some m ∧
      m.start = ⟨before, c :: d :: rest, index⟩ ∧
      m.reading.cursor = ⟨d :: c :: before, rest, index + 2⟩ ∧ spaced m = [c, ' ', d] := by
  rw [risesAt, Option.any_some, Bool.and_eq_true] at h
  let start : Reading := ⟨⟨before, c :: d :: rest, index⟩, []⟩
  let low := (start.pass [c] (d :: rest)).close 1 start.cursor
  have hlow : First (group 1 (one (.ofRanges [('a', 'z'), ('0', '9')]))) start low :=
    (first_one rfl (by rw [admits_endsWord, h.1])).group
  have hcapital : First (group 2 (one (.ofRanges [('A', 'Z')]))) low
      ((low.pass [d] rest).close 2 low.cursor) :=
    (first_one rfl (by rw [admits_capital, h.2])).group
  refine ⟨_, (hlow.seq hcapital).matchAt?, rfl, rfl, ?_⟩
  simp [spaced, Match.group?, Reading.capture?, Reading.close, Capture.text, Cursor.upTo, low, start,
    Reading.pass]

theorem least_caseEdge : 0 < caseEdge.ownWidth.least := by decide

/-- Where no capital follows the character is kept and the search goes on behind it. -/
theorem replaceFrom_caseEdge_cons (h : caseEdge.matchAt? ⟨before, c :: after, index⟩ = none) :
    replaceFrom spaced ⟨before, c :: after, index⟩ (caseEdge.matchesFrom before index 0 (c :: after)) =
      c :: replaceFrom spaced ⟨c :: before, after, index + 1⟩
        (caseEdge.matchesFrom (c :: before) (index + 1) 0 after) := by
  rw [matchesFrom_cons_of_none (Nat.zero_le index) h]
  apply replaceFrom_cons
  intro m hm
  have hmem := List.mem_of_head? hm
  rw [← matchesFrom_eq_of_le least_caseEdge (le_refl (index + 1))] at hmem
  exact free_le_of_mem_matchesFrom least_caseEdge hmem

theorem endsWord_of_isUpper (h : c.isUpper = true) : endsWord c = false := by
  rw [Text.isUpper_iff_toNat] at h
  have hbounds : 65 ≤ c.toNat ∧ c.toNat ≤ 90 := h
  rw [endsWord, Bool.or_eq_false_iff]
  constructor
  · rw [Bool.eq_false_iff, ne_eq, Text.isLower_iff_toNat]
    have ha : 'a'.toNat = 97 := rfl
    omega
  · rw [Bool.eq_false_iff, ne_eq, Char.isDigit_iff_toNat]
    have hnine : '9'.toNat = 57 := rfl
    omega

/-- To put a space into each match is to put one wherever a word begins: where a match has ended with
a capital, no word begins at the next character. -/
theorem replaceFrom_caseEdge (before text : List Char) (index : ℕ) :
    replaceFrom spaced ⟨before, text, index⟩ (caseEdge.matchesFrom before index 0 text) =
      spaceOut text := by
  induction text generalizing before index with
  | nil =>
      have hnone : caseEdge.matchAt? ⟨before, [], index⟩ = none := matchAt?_caseEdge_eq_none (by simp)
      rw [matchesFrom, if_neg (Nat.not_lt_zero index), matchesAt_eq_toList least_caseEdge, hnone]
      rfl
  | cons c text ih =>
      cases text with
      | nil =>
          have hnone : caseEdge.matchAt? ⟨before, [c], index⟩ = none :=
            matchAt?_caseEdge_eq_none (by simp)
          rw [replaceFrom_caseEdge_cons hnone, ih]
          rfl
      | cons d rest =>
          rw [spaceOut_cons_cons]
          by_cases hrises : risesAt (some c) d = true
          · obtain ⟨m, hm, hstart, hstop, hspaced⟩ :=
              @matchAt?_caseEdge c before index d rest hrises
            have hupper : d.isUpper = true := (Bool.and_eq_true_iff.1 hrises).2
            have hnone : caseEdge.matchAt? ⟨c :: before, d :: rest, index + 1⟩ = none := by
              apply matchAt?_caseEdge_eq_none
              intro e next more heq
              obtain ⟨rfl, -⟩ := List.cons.inj heq
              rw [risesAt, Option.any_some, endsWord_of_isUpper hupper, Bool.false_and]
            have hsecond := ih (c :: before) (index + 1)
            rw [replaceFrom_caseEdge_cons hnone] at hsecond
            rw [matchesFrom_cons_of_some least_caseEdge (Nat.zero_le index) hm, replaceFrom, hstart,
              hstop, hspaced, matchesFrom_cons_of_lt (Nat.lt_succ_self (index + 1)),
              matchesFrom_eq_of_le least_caseEdge le_rfl, ← hsecond, if_pos hrises]
            simp [Cursor.upTo]
          · have hnone : caseEdge.matchAt? ⟨before, c :: d :: rest, index⟩ = none := by
              apply matchAt?_caseEdge_eq_none
              intro e next more heq
              obtain ⟨rfl, rfl, rfl⟩ : c = e ∧ d = next ∧ rest = more := by simpa using heq
              exact Bool.eq_false_of_not_eq_true hrises
            rw [replaceFrom_caseEdge_cons hnone, ih]
            exact (if_neg hrises).symm

theorem replaceAll_caseEdge (text : List Char) : caseEdge.replaceAll spaced text = spaceOut text :=
  replaceFrom_caseEdge [] text 0

theorem ends_separators_eq_nil {r : Reading} (h : ∀ c ∈ r.cursor.after.head?, isSeparator c = false) :
    separators.ends r = [] := by
  rw [List.eq_nil_iff_forall_not_mem]
  intro r' hmem
  obtain ⟨-, front, ⟨hne, hall⟩, rest, hafter, -⟩ := (reads_plus _ r r').1 hmem
  obtain ⟨c, more, rfl⟩ := List.exists_cons_of_ne_nil hne
  have hc := hall c List.mem_cons_self
  rw [admits_separator, h c (by rw [hafter]; rfl)] at hc
  cases hc

/-- Separators in front only add empty pieces. -/
theorem filter_splitWhere_append {front : List Char} (h : ∀ c ∈ front, isSeparator c = true)
    (text : List Char) :
    (Text.splitWhere isSeparator (front ++ text)).filter (!·.isEmpty) =
      (Text.splitWhere isSeparator text).filter (!·.isEmpty) := by
  induction front with
  | nil => rfl
  | cons c front ih =>
      obtain ⟨hc, hfront⟩ := List.forall_mem_cons.1 h
      rw [List.cons_append, Text.splitWhere_cons_of_pos hc, List.filter_cons_of_neg (by simp), ih hfront]

/-- To cut at runs of separators leaves the pieces between single separators that are not empty. -/
theorem filter_piecesFrom_separators (before text : List Char) (index : ℕ) :
    (piecesFrom ⟨before, text, index⟩ (separators.matchesFrom before index index text)).filter
        (!·.isEmpty) =
      (Text.splitWhere isSeparator text).filter (!·.isEmpty) := by
  induction hlength : text.length using Nat.strong_induction_on generalizing before text index with
  | _ length ih =>
      obtain ⟨word, tail, rfl, hword, htail⟩ : ∃ word tail, text = word ++ tail ∧
          (∀ c ∈ word, isSeparator c = false) ∧ ∀ c ∈ tail.head?, isSeparator c = true :=
        ⟨_, _, List.takeWhile_append_dropWhile.symm,
          fun c hc => by simpa using List.mem_takeWhile_imp (p := (!isSeparator ·)) hc,
          fun c hc => by simpa using @stops_dropWhile (!isSeparator ·) text c hc⟩
      have hskip : separators.matchesFrom before index index (word ++ tail) =
          separators.matchesFrom (word.reverse ++ before) (index + word.length) index tail :=
        matchesFrom_skip le_rfl fun c hc r hhead => ends_separators_eq_nil fun d hd => by
          rw [hhead] at hd
          exact Option.some.inj hd ▸ hword c hc
      rw [hskip]
      cases tail with
      | nil =>
          have hnone : separators.matchesAt ⟨word.reverse ++ before, [], index + word.length⟩ = [] :=
            matchesAt_eq_nil (ends_separators_eq_nil (by simp))
          rw [matchesFrom, hnone, ite_self, piecesFrom, List.append_nil,
            Text.splitWhere_of_forall hword]
      | cons s more =>
          have hs : isSeparator s = true := htail s rfl
          obtain ⟨run, rest, rfl, hrun, hrest⟩ : ∃ run rest, more = run ++ rest ∧
              (∀ c ∈ run, isSeparator c = true) ∧ ∀ c ∈ rest.head?, isSeparator c = false :=
            ⟨_, _, List.takeWhile_append_dropWhile.symm, fun c hc => List.mem_takeWhile_imp hc,
              stops_dropWhile⟩
          have hall : ∀ c ∈ s :: run, isSeparator c = true := List.forall_mem_cons.2 ⟨hs, hrun⟩
          have hfirst : First separators
              ⟨⟨word.reverse ++ before, (s :: run) ++ rest, index + word.length⟩, []⟩ _ :=
            first_plus rfl (List.cons_ne_nil s run)
              (fun c hc => (admits_separator c).trans (hall c hc))
              (fun c hc => (admits_separator c).trans (hrest c hc))
          have hshort : rest.length < length := by
            rw [← hlength]
            simp only [List.length_append, List.length_cons]
            omega
          have hmatches := matchesFrom_of_first (Nat.le_add_right index word.length)
            (List.cons_ne_nil s run) hfirst rfl
          have hpiece : (⟨before, word ++ (s :: run ++ rest), index⟩ : Cursor).upTo
              ⟨word.reverse ++ before, s :: run ++ rest, index + word.length⟩ = word := by
            simp [Cursor.upTo]
          rw [← List.cons_append, hmatches, piecesFrom, hpiece, ← List.singleton_append,
            List.filter_append, List.cons_append, Text.splitWhere_append_cons hs,
            Text.splitWhere_of_forall hword, List.filter_append, filter_splitWhere_append hrun,
            ← ih rest.length hshort _ rest _ rfl]
          rfl

theorem filter_cutAt_separators (text : List Char) :
    (separators.cutAt text).filter (!·.isEmpty) =
      (Text.splitWhere isSeparator text).filter (!·.isEmpty) :=
  filter_piecesFrom_separators [] text 0

/-- The words of a text by way of patterns: with a space in each rise of the case, the text is cut at
separators. -/
def patternWords (text : List Char) : List (List Char) :=
  ((separators.cutAt (caseEdge.replaceAll spaced text)).filter (!·.isEmpty)).map Text.lower

theorem patternWords_eq (text : List Char) : patternWords text = wordsOf text := by
  rw [patternWords, replaceAll_caseEdge, filter_cutAt_separators, wordsOf]

/-! ## Identifiers of ASCII characters -/

/-- Whether a character can stand in a word of an ASCII identifier. -/
def isWordChar (c : Char) : Bool := c.toNat < 0x80 && !isSeparator c && !c.isUpper

theorem toLower_of_ascii : ∀ code < 0x80,
    ((Char.ofNat code).toLower.toNat < 0x80 && !(Char.ofNat code).toLower.isUpper &&
      (isSeparator (Char.ofNat code).toLower == isSeparator (Char.ofNat code))) = true := by
  decide

theorem isWordChar_toLower (hascii : c.toNat < 0x80) (h : isSeparator c = false) :
    isWordChar c.toLower = true := by
  have hlower := toLower_of_ascii c.toNat hascii
  rw [Char.ofNat_toNat, Bool.and_eq_true, Bool.and_eq_true, beq_iff_eq] at hlower
  rw [isWordChar, hlower.1.1, hlower.1.2, hlower.2, h]
  rfl

theorem toLower_of_isWordChar (h : isWordChar c = true) : c.toLower = c := by
  have hupper : c.isUpper = false := by
    rw [isWordChar, Bool.and_eq_true, Bool.not_eq_true'] at h
    exact h.2
  have hnot : ¬ (c.val ≥ 'A'.val ∧ c.val ≤ 'Z'.val) := by
    rintro ⟨hlow, hhigh⟩
    rw [Bool.eq_false_iff, ne_eq, Text.isUpper_iff_toNat] at hupper
    exact hupper ⟨hlow, hhigh⟩
  exact dif_neg hnot

theorem lower_of_ascii (h : ∀ c ∈ text, c.toNat < 0x80) : Text.lower text = text.map Char.toLower := by
  have hafter : ∀ before, Text.lowerAfter before text = text.map Char.toLower := by
    induction text with
    | nil => exact fun _ => rfl
    | cons c text ih =>
        obtain ⟨hc, htext⟩ := List.forall_mem_cons.1 h
        have hother : ∀ d : Char, 0x80 ≤ d.toNat → c ≠ d := by
          rintro d hd rfl
          omega
        intro before
        rw [Text.lowerAfter, ih htext, Text.lowerChar, if_pos hc, List.map_cons]
        · exact hother 'Σ' (by decide)
        · exact hother 'İ' (by decide)
  exact hafter []

theorem flatten_consFirst (c : Char) (pieces : List (List Char)) :
    (Text.consFirst c pieces).flatten = c :: pieces.flatten := by
  cases pieces <;> rfl

/-- The pieces hold all characters but the separators. -/
theorem flatten_piecesAfter (previous : Option Char) (text : List Char) :
    (piecesAfter previous text).flatten = text.filter (!isSeparator ·) := by
  induction text generalizing previous with
  | nil => rfl
  | cons c text ih =>
      rw [piecesAfter]
      cases hc : isSeparator c with
      | true =>
          rw [if_pos rfl, List.flatten_cons, List.nil_append, ih, List.filter_cons_of_neg (by simp [hc])]
      | false =>
          rw [if_neg Bool.false_ne_true, List.filter_cons_of_pos (by simp [hc])]
          split
          · rw [List.flatten_cons, List.nil_append, flatten_consFirst, ih]
          · rw [flatten_consFirst, ih]

theorem mem_of_mem_piecesAfter {previous : Option Char} {piece : List Char}
    (h : piece ∈ piecesAfter previous text) (hc : c ∈ piece) : c ∈ text ∧ isSeparator c = false := by
  have hkept : c ∈ text.filter (!isSeparator ·) := by
    rw [← flatten_piecesAfter previous]
    exact List.mem_flatten.2 ⟨piece, h, hc⟩
  simpa using List.mem_filter.1 hkept

/-- The words of an ASCII identifier hold nothing else than characters of words. -/
structure Plain (word : List Char) : Prop where
  nonempty : word ≠ []
  chars : ∀ c ∈ word, isWordChar c = true

theorem plain_of_mem_wordsOf (hascii : ∀ c ∈ text, c.toNat < 0x80) {word : List Char}
    (h : word ∈ wordsOf text) : Plain word := by
  rw [wordsOf_eq_segments, segments] at h
  obtain ⟨piece, hpiece, rfl⟩ := List.mem_map.1 h
  obtain ⟨hmem, hne⟩ := List.mem_filter.1 hpiece
  rw [lower_of_ascii fun c hc => hascii c (mem_of_mem_piecesAfter hmem hc).1]
  refine ⟨by simpa using hne, fun c hc => ?_⟩
  obtain ⟨d, hd, rfl⟩ := List.mem_map.1 hc
  obtain ⟨hd, hseparator⟩ := mem_of_mem_piecesAfter hmem hd
  exact isWordChar_toLower (hascii d hd) hseparator

theorem spaceAfter_of_plain (h : ∀ c ∈ text, c.isUpper = false) (previous : Option Char) :
    spaceAfter previous text = text := by
  induction text generalizing previous with
  | nil => rfl
  | cons c text ih =>
      obtain ⟨hc, htext⟩ := List.forall_mem_cons.1 h
      rw [spaceAfter, risesAt, hc, Bool.and_false, if_neg Bool.false_ne_true, ih htext]

theorem splitWhere_intercalate {pieces : List (List Char)}
    (h : ∀ piece ∈ pieces, piece ≠ [] ∧ ∀ c ∈ piece, isSeparator c = false) :
    (Text.splitWhere isSeparator (['_'].intercalate pieces)).filter (!·.isEmpty) = pieces := by
  induction pieces with
  | nil => rfl
  | cons piece more ih =>
      obtain ⟨⟨hne, hpiece⟩, hmore⟩ := List.forall_mem_cons.1 h
      have hkept : [piece].filter (!·.isEmpty) = [piece] := by simp [hne]
      by_cases hlast : more = []
      · rw [hlast, List.intercalate_singleton, Text.splitWhere_of_forall hpiece, hkept]
      · rw [List.intercalate_cons_of_ne_nil hlast, List.append_assoc, List.singleton_append,
          Text.splitWhere_append_cons (by decide), Text.splitWhere_of_forall hpiece,
          List.filter_append, hkept, ih hmore, List.singleton_append]

/-- Words joined with underscores are split into the same words. -/
theorem wordsOf_intercalate {pieces : List (List Char)} (h : ∀ piece ∈ pieces, Plain piece) :
    wordsOf (['_'].intercalate pieces) = pieces := by
  have hchar : ∀ piece ∈ pieces, ∀ c ∈ piece,
      c.toNat < 0x80 ∧ isSeparator c = false ∧ c.isUpper = false := by
    intro piece hpiece c hc
    simpa [isWordChar, and_assoc] using (h piece hpiece).chars c hc
  have hupper : ∀ c ∈ ['_'].intercalate pieces, c.isUpper = false := by
    intro c hc
    rcases Text.mem_intercalate hc with rfl | ⟨piece, hpiece, hc⟩
    · rfl
    · exact (hchar piece hpiece c hc).2.2
  have hlower : ∀ piece ∈ pieces, Text.lower piece = id piece := by
    intro piece hpiece
    rw [lower_of_ascii fun c hc => (hchar piece hpiece c hc).1]
    have hsame : ∀ c ∈ piece, c.toLower = id c :=
      fun c hc => toLower_of_isWordChar ((h piece hpiece).chars c hc)
    rw [List.map_congr_left hsame, List.map_id, id]
  rw [wordsOf, spaceOut_eq_spaceAfter, spaceAfter_of_plain hupper,
    splitWhere_intercalate fun piece hpiece =>
      ⟨(h piece hpiece).nonempty, fun c hc => (hchar piece hpiece c hc).2.1⟩,
    List.map_congr_left hlower, List.map_id]

/-- Together the words are the text in lower case without its separators. -/
theorem flatten_wordsOf (hascii : ∀ c ∈ text, c.toNat < 0x80) :
    (wordsOf text).flatten = Text.lower (text.filter (!isSeparator ·)) := by
  have hpieces : ∀ piece ∈ (piecesAfter none text).filter (!·.isEmpty),
      Text.lower piece = piece.map Char.toLower := by
    intro piece hpiece
    have hmem := (List.mem_filter.1 hpiece).1
    exact lower_of_ascii fun c hc => hascii c (mem_of_mem_piecesAfter hmem hc).1
  have hkept : ∀ c ∈ text.filter (!isSeparator ·), c.toNat < 0x80 :=
    fun c hc => hascii c (List.mem_filter.1 hc).1
  rw [wordsOf_eq_segments, segments, List.map_congr_left hpieces, ← List.map_flatten,
    List.flatten_filter_not_isEmpty, flatten_piecesAfter, lower_of_ascii hkept]

/-- The words of a name are the pieces of one walk from left to right, in lower case, and those that the
patterns for rises of the case and for separators leave.  If the name is one of ASCII characters, then
its words joined with underscores have the same words, and joined with nothing between they are the name
in lower case without its separators. -/
theorem words_of_walk (name : String) :
    words name = (segments name.toList).map String.ofList ∧
      words name = (patternWords name.toList).map String.ofList ∧
      ((∀ c ∈ name.toList, c.toNat < 0x80) →
        words ("_".intercalate (words name)) = words name ∧
          String.join (words name) =
            Text.lowered (String.ofList (name.toList.filter (!isSeparator ·)))) := by
  refine ⟨by rw [words, wordsOf_eq_segments], by rw [words, patternWords_eq], fun hascii => ⟨?_, ?_⟩⟩
  · have hjoined : ("_".intercalate (words name)).toList = ['_'].intercalate (wordsOf name.toList) := by
      rw [String.toList_intercalate, words, List.map_map]
      simp [Function.comp_def]
    rw [words, hjoined, wordsOf_intercalate fun word hword => plain_of_mem_wordsOf hascii hword, words]
  · rw [← String.toList_inj, String.toList_join, Text.lowered, String.toList_ofList,
      String.toList_ofList, ← flatten_wordsOf hascii, words, List.flatMap_map]
    simp [List.flatMap_id']

theorem words_apiKeyV2 :
    words ("_".intercalate (words "API-keyV2")) = ["api", "key", "v2"] ∧
      String.join (words "API-keyV2") = "apikeyv2" := by
  have hascii : ∀ c ∈ "API-keyV2".toList, c.toNat < 0x80 := by decide
  have hwords : words "API-keyV2" = ["api", "key", "v2"] := by decide +kernel
  obtain ⟨-, -, hstable⟩ := words_of_walk "API-keyV2"
  obtain ⟨hsame, hjoin⟩ := hstable hascii
  exact ⟨hsame.trans hwords, hjoin.trans (by decide +kernel)⟩

end Identifier

end EnvAudit
