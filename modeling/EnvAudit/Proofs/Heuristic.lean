import EnvAudit.Heuristic
import EnvAudit.Proofs.Pattern.Letters
import EnvAudit.Proofs.Pattern.Occurs
import EnvAudit.Proofs.Text.Split

/-!
# Heuristics that repeat value rules

Two heuristics for values judge as a value rule does: the one for web addresses asks three questions where
the rule has one pattern, and the one for signed web tokens splits what the rule reads.  Behind the value
rules, only long tokens are therefore left for the heuristics to find.
-/

namespace EnvAudit

open Pattern

namespace Heuristic

variable {content scheme rest : List Char} {words : List String}

/-! ## Web addresses -/

/-- The schemes of web addresses, in either case. -/
def schemes : Set (List Char) :=
  Set.image2 (· ++ ·)
    (Set.image2 (· ++ ·) {read | SameLetters "http".toList read}
      (insert [] {read | SameLetters "s".toList read}))
    {read | SameLetters "://".toList read}

theorem reads_webScheme : ReadsAnywhere webScheme schemes :=
  ((reads_text_ignoringCase "http").seq (reads_text_ignoringCase "s").opt).seq
    (reads_text_ignoringCase "://")

/-- The texts that agree with one of the words when case is ignored. -/
def spellings (words : List String) : Set (List Char) :=
  {read | ∃ word ∈ words, SameLetters word.toList read}

def schemeLetters : List Char := "https:/".toList

theorem isSmall_of_mem_schemeLetters : ∀ c ∈ schemeLetters, Text.isSmall c = true := by decide

/-- A scheme ends with a slash, and has no other letters than those that schemes have. -/
theorem exists_of_mem_schemes (h : scheme ∈ schemes) :
    (∃ front, scheme = front ++ ['/']) ∧
      ∀ d ∈ scheme, ∃ c ∈ schemeLetters, c ∈ Text.caseVariants d := by
  obtain ⟨_, ⟨protocol, hprotocol, secure, hsecure, rfl⟩, marks, hmarks, rfl⟩ := h
  have hletters : ∀ {text : String} {read : List Char}, SameLetters text.toList read →
      text.toList ⊆ schemeLetters → ∀ d ∈ read, ∃ c ∈ schemeLetters, c ∈ Text.caseVariants d := by
    intro text read hread hsubset d hd
    obtain ⟨c, hc, hvariant⟩ := hread.exists_of_mem hd
    exact ⟨c, hsubset hc, hvariant⟩
  constructor
  · have hmarks : SameLetters "://".toList marks := hmarks
    obtain ⟨front, last, rfl⟩ : ∃ front last, marks = front ++ [last] := by
      rcases List.eq_nil_or_concat' marks with rfl | h
      · cases hmarks
      · exact h
    have hlast : (CharClass.ofChar '/').anyCase.admits last = true := by
      have hreverse := List.forall₂_reverse_iff.2 hmarks
      rw [List.reverse_append] at hreverse
      cases hreverse with
      | cons hlast _ => exact hlast
    have hslash := Text.eq_of_mem_caseVariants (CharClass.mem_caseVariants_of_admits hlast)
      (by decide) (by decide)
    exact ⟨protocol ++ secure ++ front, by rw [← hslash, List.append_assoc]⟩
  · intro d hd
    rcases List.mem_append.1 hd with hd | hd
    · rcases List.mem_append.1 hd with hd | hd
      · exact hletters hprotocol (by decide) d hd
      · rcases hsecure with rfl | hsecure
        · cases hd
        · exact hletters hsecure (by decide) d hd
    · exact hletters hmarks (by decide) d hd

/-- A word in small letters that has no slash, and a letter that no scheme has. -/
def apartFromSchemes (word : String) : Bool :=
  word.toList.all Text.isSmall && !word.toList.contains '/'
    && word.toList.any fun c => !schemeLetters.contains c

/-- No word that is apart from schemes begins in one. -/
theorem holdsText_scheme_append_iff (hwords : words.all apartFromSchemes = true)
    (hscheme : scheme ∈ schemes) :
    HoldsText (spellings words) (scheme ++ rest) ↔ HoldsText (spellings words) rest := by
  obtain ⟨⟨front, rfl⟩, hletters⟩ := exists_of_mem_schemes hscheme
  have hapart : ∀ word ∈ words, (∀ c ∈ word.toList, Text.isSmall c = true) ∧ '/' ∉ word.toList ∧
      ∃ c ∈ word.toList, c ∉ schemeLetters := by
    intro word hword
    simpa [apartFromSchemes, and_assoc] using List.all_eq_true.1 hwords word hword
  apply holdsText_append_iff
  · rintro read ⟨word, hword, hread⟩ hmem
    obtain ⟨hsmall, hslash, -⟩ := hapart word hword
    obtain ⟨c, hc, hvariant⟩ := hread.exists_of_mem hmem
    have heq : c = '/' :=
      Text.eq_of_mem_caseVariants_of_mem hvariant (by decide) (hsmall c hc) (by decide)
    exact hslash (heq ▸ hc)
  · rintro read ⟨word, hword, hread⟩
    obtain ⟨hsmall, -, c, hc, hnot⟩ := hapart word hword
    obtain ⟨d, hd, hvariant⟩ := hread.exists_of_mem_text hc
    refine ⟨d, hd, fun hmem => ?_⟩
    obtain ⟨e, he, hother⟩ := hletters d hmem
    have heq := Text.eq_of_mem_caseVariants_of_mem hvariant hother (hsmall c hc)
      (isSmall_of_mem_schemeLetters e he)
    exact hnot (heq ▸ he)

theorem all_apartFromSchemes :
    (["localhost", "127.0.0.1"].all apartFromSchemes && Rule.endpointWords.all apartFromSchemes) =
      true := by
  decide

/-- The rule for service addresses looks for loopback names and endpoint words behind the scheme. -/
theorem endpointUrl_occursIn_iff :
    Rule.endpointUrl.occursIn content = true ↔ ∃ scheme ∈ schemes, ∃ rest, content = scheme ++ rest ∧
      ¬ HoldsText (spellings ["localhost", "127.0.0.1"]) rest ∧
        HoldsText (spellings Rule.endpointWords) rest := by
  let anything := star CharClass.anyChar.anyCase
  have hanything : ∀ c, CharClass.anyChar.anyCase.admits c = true := fun _ => rfl
  have havoided : ∀ r, (anything ++ loopback).ends r ≠ [] ↔
      HoldsText (spellings ["localhost", "127.0.0.1"]) r.cursor.after := fun _ =>
    (reads_anyText_ignoringCase _).ends_star_seq_ne_nil_iff hanything
  have hwanted : ∀ r, (anything ++ endpointWord).ends r ≠ [] ↔
      HoldsText (spellings Rule.endpointWords) r.cursor.after := fun _ =>
    (reads_anyText_ignoringCase _).ends_star_seq_ne_nil_iff hanything
  have hrest : ∀ r, (ahead false (anything ++ loopback) ++ (anything ++ endpointWord)).ends r ≠ [] ↔
      ¬ HoldsText (spellings ["localhost", "127.0.0.1"]) r.cursor.after ∧
        HoldsText (spellings Rule.endpointWords) r.cursor.after := by
    intro r
    have hahead := reads_ahead_false
      (P := fun c => HoldsText (spellings ["localhost", "127.0.0.1"]) c.after) havoided
    rw [hahead.ends_seq_ne_nil_iff]
    simp only [hwanted, Set.mem_singleton_iff, exists_eq_left, List.nil_append, exists_eq_left',
      Reading.pass]
  have hrule : Rule.endpointUrl = edge .textStart ++
      (webScheme ++ ahead false (anything ++ loopback) ++ anything ++ endpointWord) := rfl
  rw [hrule, occursIn_textStart_iff, ends_seq_assoc, ends_seq_assoc,
    reads_webScheme.ends_seq_ne_nil_iff]
  simp only [hrest, true_and, Reading.pass, Cursor.start]

/-- The heuristic for service addresses judges as the rule does. -/
theorem endpointUrl_occursIn (value : String) :
    Rule.endpointUrl.occursIn value.toList = isConfigUrl value := by
  have hscheme : (webScheme.matchAt? (.start value.toList)).isSome = true ↔
      ∃ scheme ∈ schemes, ∃ rest, value.toList = scheme ++ rest := by
    rw [isSome_matchAt?_start_iff, reads_webScheme.ends_ne_nil_iff, true_and]
    exact exists_congr fun scheme => and_congr_right fun _ => exists_congr fun rest => eq_comm
  have hloopback : loopback.occursIn value.toList = true ↔ _ :=
    (reads_anyText_ignoringCase _).occursIn_iff value.toList
  have hendpoint : endpointWord.occursIn value.toList = true ↔ _ :=
    (reads_anyText_ignoringCase _).occursIn_iff value.toList
  obtain ⟨hapart, hapart'⟩ := Bool.and_eq_true_iff.1 all_apartFromSchemes
  rw [Bool.eq_iff_iff, endpointUrl_occursIn_iff, isConfigUrl]
  simp only [Bool.and_eq_true, Bool.not_eq_true', ← Bool.not_eq_true, hscheme, hloopback, hendpoint]
  constructor
  · rintro ⟨scheme, hscheme, rest, heq, havoided, hwanted⟩
    rw [heq, ← spellings, ← spellings, holdsText_scheme_append_iff hapart hscheme,
      holdsText_scheme_append_iff hapart' hscheme]
    exact ⟨⟨⟨scheme, hscheme, rest, rfl⟩, havoided⟩, hwanted⟩
  · rintro ⟨⟨⟨scheme, hscheme, rest, heq⟩, havoided⟩, hwanted⟩
    rw [heq, ← spellings, holdsText_scheme_append_iff hapart hscheme] at havoided
    rw [heq, ← spellings, holdsText_scheme_append_iff hapart' hscheme] at hwanted
    exact ⟨scheme, hscheme, rest, heq, havoided, hwanted⟩

/-! ## Signed web tokens -/

theorem admits_tokenChar (c : Char) : Rule.tokenChar.admits c = isTokenChar c := by
  have hmarks : "-_".toList.contains c = (c == '-' || c == '_') := by
    rw [Bool.eq_iff_iff]
    simp
  rw [Rule.tokenChar, CharClass.admits_union (c := c) Rule.alnum (.ofString "-_") rfl rfl rfl, Rule.alnum,
    CharClass.admits_ofRanges, CharClass.admits_ofString]
  simp only [List.any_cons, List.any_nil, CharClass.between_upper, CharClass.between_lower,
    CharClass.between_digit, isTokenChar, Char.isAlphanum, Text.isAlpha_eq, hmarks, Bool.or_false,
    Bool.or_assoc]

/-- Not empty, and token characters throughout. -/
def IsTokenRun (run : List Char) : Prop := run ≠ [] ∧ ∀ c ∈ run, isTokenChar c = true

theorem IsTokenRun.notMem {run : List Char} {c : Char} (h : IsTokenRun run) (hc : isTokenChar c = false) :
    c ∉ run := by
  intro hmem
  rw [h.2 c hmem] at hc
  cases hc

def dottedTriples : Set (List Char) :=
  {text | ∃ a b c, IsTokenRun a ∧ IsTokenRun b ∧ IsTokenRun c ∧ text = ['.'].intercalate [a, b, c]}

theorem newline_notMem_of_mem_dottedTriples {text : List Char} (h : text ∈ dottedTriples) :
    '\n' ∉ text := by
  obtain ⟨a, b, c, ha, hb, hc, rfl⟩ := h
  have hnewline : isTokenChar '\n' = false := by decide
  simp [List.intercalate, List.intersperse, ha.notMem hnewline, hb.notMem hnewline, hc.notMem hnewline]

/-- The rule for signed web tokens. -/
theorem dottedTriple_occursIn_iff {content : List Char} :
    Rule.dottedTriple.occursIn content = true ↔
      content ∈ dottedTriples ∨ ∃ front ∈ dottedTriples, content = front ++ ['\n'] := by
  have hrun : ReadsAnywhere (plus Rule.tokenChar) {run | IsTokenRun run} := by
    have hplus := reads_plus Rule.tokenChar
    simp only [admits_tokenChar] at hplus
    exact hplus
  have hreads := (((hrun.seq (reads_text ".")).seq hrun).seq (reads_text ".")).seq hrun
  have hset : Set.image2 (· ++ ·) (Set.image2 (· ++ ·) (Set.image2 (· ++ ·) (Set.image2 (· ++ ·)
      {run | IsTokenRun run} {".".toList}) {run | IsTokenRun run}) {".".toList})
        {run | IsTokenRun run} = dottedTriples := by
    ext text
    constructor
    · rintro ⟨_, ⟨_, ⟨_, ⟨a, ha, _, rfl, rfl⟩, b, hb, rfl⟩, _, rfl, rfl⟩, c, hc, rfl⟩
      exact ⟨a, b, c, ha, hb, hc, by simp [List.intercalate, List.intersperse]⟩
    · rintro ⟨a, b, c, ha, hb, hc, rfl⟩
      exact ⟨_, ⟨_, ⟨_, ⟨a, ha, _, rfl, rfl⟩, b, hb, rfl⟩, _, rfl, rfl⟩, c, hc,
        by simp [List.intercalate, List.intersperse]⟩
  rw [hset] at hreads
  exact ReadsAnywhere.occursIn_whole_iff hreads

theorem eq_or_eq_concat_dropLastNewline (text : List Char) :
    text = dropLastNewline text ∨ text = dropLastNewline text ++ ['\n'] := by
  fun_induction dropLastNewline text with
  | case1 => exact .inl rfl
  | case2 => exact .inr rfl
  | case3 c rest _ ih => exact ih.imp (congrArg (c :: ·)) (congrArg (c :: ·))

theorem dropLastNewline_concat (text : List Char) : dropLastNewline (text ++ ['\n']) = text := by
  induction text with
  | nil => rfl
  | cons c text ih =>
    rw [List.cons_append, dropLastNewline, ih]
    simp

theorem dropLastNewline_of_notMem {text : List Char} (h : '\n' ∉ text) : dropLastNewline text = text := by
  rcases eq_or_eq_concat_dropLastNewline text with heq | heq
  · exact heq.symm
  · rw [heq] at h
    exact absurd (by simp) h

theorem isDottedTriple_iff (value : String) :
    isDottedTriple value = true ↔ dropLastNewline value.toList ∈ dottedTriples := by
  have hdot : isTokenChar '.' = false := by decide
  constructor
  · intro h
    rw [isDottedTriple] at h
    split at h
    · rename_i a b c hsplit
      simp only [List.all_cons, List.all_nil, Bool.and_true, Bool.and_eq_true, Bool.not_eq_true',
        List.isEmpty_eq_false_iff, List.all_eq_true] at h
      exact ⟨a, b, c, h.1, h.2.1, h.2.2, by rw [← hsplit, Text.intercalate_splitOn]⟩
    · cases h
  · rintro ⟨a, b, c, ha, hb, hc, heq⟩
    have hsplit : Text.splitOn '.' (dropLastNewline value.toList) = [a, b, c] := by
      rw [heq]
      apply Text.splitOn_intercalate (List.cons_ne_nil _ _)
      simp [ha.notMem hdot, hb.notMem hdot, hc.notMem hdot]
    rw [isDottedTriple, hsplit]
    simp only [List.all_cons, List.all_nil, Bool.and_true, Bool.and_eq_true, Bool.not_eq_true',
        List.isEmpty_eq_false_iff, List.all_eq_true]
    exact ⟨ha, hb, hc⟩

theorem dottedTriple_occursIn (value : String) :
    Rule.dottedTriple.occursIn value.toList = isDottedTriple value := by
  rw [Bool.eq_iff_iff, dottedTriple_occursIn_iff, isDottedTriple_iff]
  constructor
  · rintro (hmem | ⟨front, hfront, heq⟩)
    · rwa [dropLastNewline_of_notMem (newline_notMem_of_mem_dottedTriples hmem)]
    · rwa [heq, dropLastNewline_concat]
  · intro hmem
    rcases eq_or_eq_concat_dropLastNewline value.toList with heq | heq
    · exact .inl (heq ▸ hmem)
    · exact .inr ⟨_, hmem, heq⟩

/-! ## What is left for the heuristics -/

/-- The two heuristics judge as the rules that they repeat, so that where no value rule applies only a long
token looks like a secret. -/
theorem agrees_with_valueRules (value : String) :
    Rule.endpointUrl.occursIn value.toList = isConfigUrl value ∧
      Rule.dottedTriple.occursIn value.toList = isDottedTriple value ∧
        ((∀ rule ∈ Rule.valueRules, rule.appliesTo value = false) →
          isSecretLike value = isLongToken value) := by
  refine ⟨endpointUrl_occursIn value, dottedTriple_occursIn value, fun hnone => ?_⟩
  have hconfig : isConfigUrl value = false := by
    rw [← endpointUrl_occursIn]
    exact hnone ⟨Rule.endpointUrl, .high⟩ (by simp [Rule.valueRules])
  have htriple : isDottedTriple value = false := by
    rw [← dottedTriple_occursIn]
    exact hnone ⟨Rule.dottedTriple, .high⟩ (by simp [Rule.valueRules])
  rw [isSecretLike, hconfig, htriple, Bool.false_or, Bool.or_false]

/-- A passphrase is left for the heuristics by every value rule. -/
theorem agrees_with_valueRules_passphrase :
    (∀ rule ∈ Rule.valueRules, rule.appliesTo "correct-horse!battery" = false) ∧
      isSecretLike "correct-horse!battery" = isLongToken "correct-horse!battery" :=
  have hnone : ∀ rule ∈ Rule.valueRules, rule.appliesTo "correct-horse!battery" = false := by
    decide
  ⟨hnone, (agrees_with_valueRules "correct-horse!battery").2.2 hnone⟩

end Heuristic

end EnvAudit
