import EnvAudit.Proofs.FileScan.Facts
import EnvAudit.Proofs.Literal
import EnvAudit.Proofs.Pattern.Classes
import EnvAudit.Proofs.Pattern.First
import EnvAudit.Proofs.Source
import EnvAudit.Proofs.Text.Blank

/-!
# A declared literal

A constant that is declared with a literal and scored by the engine is suggested with this literal,
unless the text of the literal reads the environment.
-/

namespace EnvAudit.FileScan

open Pattern

/-- A declaration of a constant that is given a literal. -/
def declarationOf (name literal : List Char) : List Char :=
  "const ".toList ++ name ++ " = \"".toList ++ literal ++ "\";".toList

/-- Whether a text is the name of a variable. -/
def isVariableName : List Char → Bool
  | [] => false
  | c :: rest =>
    (c.isAlpha || c == '_' || c == '$') && rest.all fun c => c.isAlphanum || c == '_' || c == '$'

/-- A literal that neither ends early nor looks like code outside it. -/
structure Unbroken (literal : List Char) : Prop where
  noQuote : '"' ∉ literal
  noLineEnd : '\n' ∉ literal
  noSemicolon : ';' ∉ literal
  noLineComment : ¬ ['/', '/'] <:+: literal
  noBlockComment : ¬ ['/', '*'] <:+: literal

variable {name literal : List Char}

theorem code_declarationOf (hname : '/' ∉ name) (h : Unbroken literal) :
    Source.code (declarationOf name literal) true false = declarationOf name literal := by
  have hfront : '/' ∉ "const ".toList ++ name ++ " = \"".toList := by simp [hname]
  have hslash : '/' ∉ "\";".toList := by simp
  have hmark : ∀ mark, mark ∉ "\";".toList → ¬ ['/', mark] <:+: literal →
      ¬ ['/', mark] <:+: declarationOf name literal := by
    intro mark hmark hliteral
    have hall := Source.not_infix_append (Source.not_pair_infix_append hliteral hslash hmark) hfront
    rw [← List.append_assoc] at hall
    exact hall
  exact Source.dropComments_eq_self (hmark '*' (by simp) h.noBlockComment)
    (hmark '/' hslash h.noLineComment)

/-! ## The match -/

theorem first_blanks {r : Reading} {front rest : List Char} (hafter : r.cursor.after = front ++ rest)
    (hfront : ∀ c ∈ front, Text.isBlank c = true) (hrest : ∀ c ∈ rest.head?, Text.isBlank c = false) :
    First blanks r (r.pass front rest) := by
  refine first_star hafter ?_ ?_
  · simpa only [CharClass.admits_blank] using hfront
  · simpa only [CharClass.admits_blank] using hrest

theorem isBlank_space : Text.isBlank ' ' = true := rfl

theorem isBlank_equals : Text.isBlank '=' = false := rfl

/-- An equals sign between blanks, with something else behind it. -/
theorem first_equals {r : Reading} {left right rest : List Char}
    (hafter : r.cursor.after = left ++ '=' :: (right ++ rest))
    (hleft : ∀ c ∈ left, Text.isBlank c = true) (hright : ∀ c ∈ right, Text.isBlank c = true)
    (hrest : ∀ c ∈ rest.head?, Text.isBlank c = false) :
    First Language.equals r (r.pass (left ++ '=' :: right) rest) := by
  have hblank : First blanks r (r.pass left ('=' :: (right ++ rest))) :=
    first_blanks hafter hleft (by simp [isBlank_equals])
  have hequals : First (text "=") (r.pass left ('=' :: (right ++ rest)))
      ((r.pass left ('=' :: (right ++ rest))).pass ['='] (right ++ rest)) := first_text rfl
  have hlast : First blanks ((r.pass left ('=' :: (right ++ rest))).pass ['='] (right ++ rest))
      (((r.pass left ('=' :: (right ++ rest))).pass ['='] (right ++ rest)).pass right rest) :=
    first_blanks rfl hright hrest
  have hpass : (r.pass left ('=' :: (right ++ rest))).pass ('=' :: right) rest =
      r.pass (left ++ '=' :: right) rest := r.pass_pass left ('=' :: right) rest
  have hfirst := (hblank.seq hequals).seq hlast
  rwa [Reading.pass_pass, List.singleton_append, hpass] at hfirst

theorem admits_nameFirst (c : Char) :
    (Language.nameStart.union Language.dollar).admits c = (c.isAlpha || c == '_' || c == '$') := by
  rw [CharClass.admits_union Language.nameStart Language.dollar rfl rfl rfl, Language.nameStart,
    CharClass.admits_ofRanges, Language.dollar, CharClass.admits_ofChar]
  simp only [List.any_cons, List.any_nil, Bool.or_false, CharClass.le_and_le_self, Bool.or_assoc,
    CharClass.between_upper, CharClass.between_lower, Text.isAlpha_eq]

theorem admits_nameNext (c : Char) :
    (Language.nameChar.union Language.dollar).admits c =
      (c.isAlphanum || c == '_' || c == '$') := by
  rw [CharClass.admits_union Language.nameChar Language.dollar rfl rfl rfl, Language.nameChar,
    CharClass.admits_ofRanges, Language.dollar, CharClass.admits_ofChar]
  simp only [List.any_cons, List.any_nil, Bool.or_false, CharClass.le_and_le_self, Bool.or_assoc,
    CharClass.between_upper, CharClass.between_lower, CharClass.between_digit, Char.isAlphanum,
    Text.isAlpha_eq]

/-- A variable name begins with a visible character. -/
theorem isBlank_head_of_isVariableName (hname : isVariableName name = true) {rest : List Char} :
    ∀ c ∈ (name ++ rest).head?, Text.isBlank c = false := by
  cases name with
  | nil => cases hname
  | cons c more =>
      rw [isVariableName, Bool.and_eq_true] at hname
      simp only [Bool.or_eq_true, beq_iff_eq] at hname
      intro d hd
      cases hd
      rcases hname.1 with (hletter | rfl) | rfl
      · exact Text.isBlank_of_isAlpha hletter
      · rfl
      · rfl

theorem slash_notMem_of_isVariableName (hname : isVariableName name = true) : '/' ∉ name := by
  cases name with
  | nil => cases hname
  | cons c more =>
      rw [isVariableName, Bool.and_eq_true, List.all_eq_true] at hname
      intro hmem
      rcases List.mem_cons.1 hmem with rfl | hmem
      · exact absurd hname.1 (by decide)
      · exact absurd (hname.2 '/' hmem) (by decide)

theorem first_dollarName {r : Reading} {rest : List Char} (hname : isVariableName name = true)
    (hafter : r.cursor.after = name ++ rest)
    (hrest : ∀ c ∈ rest.head?, (c.isAlphanum || c == '_' || c == '$') = false) :
    First Language.dollarName r ((r.pass name rest).close 1 r.cursor) := by
  cases name with
  | nil => cases hname
  | cons c more =>
      rw [isVariableName, Bool.and_eq_true, List.all_eq_true] at hname
      obtain ⟨hfirst, hmore⟩ := hname
      have hone : First (one (Language.nameStart.union Language.dollar)) r
          (r.pass [c] (more ++ rest)) := first_one hafter (by rw [admits_nameFirst, hfirst])
      have hstar : First (star (Language.nameChar.union Language.dollar)) (r.pass [c] (more ++ rest))
          (r.pass (c :: more) rest) := by
        have hpass : (r.pass [c] (more ++ rest)).pass more rest = r.pass (c :: more) rest :=
          r.pass_pass [c] more rest
        rw [← hpass]
        exact first_star rfl (by simpa only [admits_nameNext] using hmore)
          (by simpa only [admits_nameNext] using hrest)
      exact (hone.seq hstar).group

/-- What ends a declaration. -/
def declarationEnd : Pattern := text ";" ||| text "\n" ||| edge .textEnd

theorem ends_declarationEnd_eq_nil {r : Reading} {c : Char} {rest : List Char}
    (hafter : r.cursor.after = c :: rest) (hsemicolon : c ≠ ';') (hnewline : c ≠ '\n') :
    declarationEnd.ends r = [] := by
  have hfirst : (text ";").ends r = [] := ends_text_eq_nil (by
    rw [hafter]
    exact fun hbegins => hsemicolon (List.cons_prefix_cons.1 hbegins).1.symm)
  have hsecond : (text "\n").ends r = [] := ends_text_eq_nil (by
    rw [hafter]
    exact fun hbegins => hnewline (List.cons_prefix_cons.1 hbegins).1.symm)
  have hends : declarationEnd.ends r =
      (text ";").ends r ++ (text "\n").ends r ++ (edge .textEnd).ends r := rfl
  rw [hends, hfirst, hsecond, ends, Cursor.isAt, hafter]
  rfl

/-- The pattern of declarations reads the value up to the first semicolon. -/
theorem first_value {r : Reading} {value rest : List Char}
    (hafter : r.cursor.after = value ++ ';' :: rest)
    (hsemicolon : ';' ∉ value) (hnewline : '\n' ∉ value) :
    First (Language.valued (starLazy .anyChar) ++ ahead true declarationEnd) r
      ((r.pass value (';' :: rest)).close 2 r.cursor) := by
  refine first_group_starLazy_seq hafter (fun _ _ => rfl) ?_ ?_
  · rintro less more rfl hmore
    obtain ⟨c, more, rfl⟩ := List.exists_cons_of_ne_nil hmore
    have hc : c ∈ less ++ c :: more := List.mem_append_right _ List.mem_cons_self
    refine ends_ahead_eq_nil (ends_declarationEnd_eq_nil rfl ?_ ?_)
    · exact fun heq => hsemicolon (heq ▸ hc)
    · exact fun heq => hnewline (heq ▸ hc)
  · have hmark : First (text ";") ((r.pass value (';' :: rest)).close 2 r.cursor)
        (((r.pass value (';' :: rest)).close 2 r.cursor).pass [';'] rest) := first_text rfl
    exact hmark.alt_left.alt_left.ahead

/-- The pattern of declarations reads a whole declaration up to its semicolon. -/
theorem first_declaration {r : Reading} {c : Char} {value rest : List Char}
    (hname : isVariableName name = true) (hc : Text.isBlank c = false)
    (hafter : r.cursor.after =
      "const".toList ++ ' ' :: (name ++ ' ' :: '=' :: ' ' :: c :: (value ++ ';' :: rest)))
    (hsemicolon : ';' ∉ c :: value) (hnewline : '\n' ∉ c :: value) :
    ∃ r', First Language.declaration r r' ∧
      r'.cursor = (r.pass ("const".toList ++ ' ' :: (name ++ ' ' :: '=' :: ' ' :: c :: value))
        (';' :: rest)).cursor ∧
      (r'.capture? 1).map Capture.text = some name ∧
      (r'.capture? 2).map Capture.text = some (c :: value) := by
  let initial := c :: (value ++ ';' :: rest)
  let next := name ++ ' ' :: '=' :: ' ' :: initial
  let atName := (r.pass "const".toList (' ' :: next)).pass [' '] next
  let behind := (atName.pass name (' ' :: '=' :: ' ' :: initial)).close 1 atName.cursor
  let atValue := behind.pass [' ', '=', ' '] initial
  have hkeyword : First (anyText ["const", "let", "var"]) r (r.pass "const".toList (' ' :: next)) :=
    (first_text hafter).alt_left
  have hblank : First blanks1 (r.pass "const".toList (' ' :: next)) atName := by
    refine first_plus rfl (by simp) ?_ ?_
    · simp [CharClass.admits_blank, isBlank_space]
    · simpa only [CharClass.admits_blank] using isBlank_head_of_isVariableName hname
  have hdollar : First Language.dollarName atName behind :=
    first_dollarName hname rfl (by simp)
  have hspace : ∀ c ∈ [' '], Text.isBlank c = true := List.forall_mem_singleton.2 isBlank_space
  have hspaced : behind.cursor.after = [' '] ++ '=' :: ([' '] ++ initial) := rfl
  have hequals : First Language.equals behind atValue :=
    first_equals hspaced hspace hspace (by simp [initial, hc])
  have hvalue := first_value (show atValue.cursor.after = (c :: value) ++ ';' :: rest from rfl)
    hsemicolon hnewline
  refine ⟨(atValue.pass (c :: value) (';' :: rest)).close 2 atValue.cursor, ?_, ?_, ?_, ?_⟩
  · rw [First, Language.declaration, ends_seq_assoc]
    exact (((hkeyword.seq hblank).seq hdollar).seq hequals).seq hvalue
  · simp [Reading.pass, Reading.close, atValue, behind, atName]
    omega
  · exact congrArg some (text_pass rfl)
  · exact congrArg some (text_pass rfl)

theorem ends_text_eq_nil_of_head {first : Char} {more : List Char} {r : Reading}
    (h : ∀ c ∈ r.cursor.after.head?, c ≠ first) :
    (text (String.ofList (first :: more))).ends r = [] := by
  refine ends_text_eq_nil fun hbegins => ?_
  rw [String.toList_ofList] at hbegins
  obtain ⟨rest, hafter⟩ := hbegins
  exact h first (by rw [← hafter]; rfl) rfl

/-- A declaration begins with the first letter of its keyword. -/
theorem ends_keyword_eq_nil {r : Reading} (h : ∀ c ∈ r.cursor.after.head?, c ∉ ['c', 'l', 'v']) :
    (anyText ["const", "let", "var"]).ends r = [] := by
  have hends : (anyText ["const", "let", "var"]).ends r =
      (text "const").ends r ++ ((text "let").ends r ++ (text "var").ends r) := rfl
  have hne : ∀ first ∈ ['c', 'l', 'v'], ∀ c ∈ r.cursor.after.head?, c ≠ first :=
    fun first hfirst c hc heq => h c hc (heq ▸ hfirst)
  rw [hends, ends_text_eq_nil_of_head (hne 'c' (by decide)),
    ends_text_eq_nil_of_head (hne 'l' (by decide)), ends_text_eq_nil_of_head (hne 'v' (by decide))]
  rfl

/-- No declaration begins at a semicolon or at the end. -/
theorem ends_declaration_eq_nil {r : Reading} (h : ∀ c ∈ r.cursor.after.head?, c = ';') :
    Language.declaration.ends r = [] := by
  have hkeyword := ends_keyword_eq_nil fun c hc => h c hc ▸ by decide
  exact ends_seq_eq_nil (ends_seq_eq_nil (ends_seq_eq_nil (ends_seq_eq_nil
    (ends_seq_eq_nil hkeyword))))

/-- The declaration is the only match, and its initial value is the quoted literal. -/
theorem allMatches_declarationOf (hname : isVariableName name = true) (h : Unbroken literal) :
    ∃ m, Language.declaration.allMatches (declarationOf name literal) = [m] ∧
      m.group? 1 = some name ∧ m.group? 2 = some ('"' :: (literal ++ ['"'])) := by
  obtain ⟨value, hvalue⟩ : ∃ value, value = literal ++ ['"'] := ⟨_, rfl⟩
  obtain ⟨front, hfront⟩ : ∃ front,
      front = "const".toList ++ ' ' :: (name ++ ' ' :: '=' :: ' ' :: '"' :: value) := ⟨_, rfl⟩
  have hne : front ≠ [] := by simp [hfront]
  have htext : declarationOf name literal = front ++ [';'] := by
    unfold declarationOf
    simp [hfront, hvalue]
  have hafter : (Cursor.start (front ++ [';'])).after =
      "const".toList ++ ' ' :: (name ++ ' ' :: '=' :: ' ' :: '"' :: (value ++ [';'])) := by
    simp [hfront, Cursor.start]
  obtain ⟨r, hfirst, hcursor, hone, htwo⟩ := first_declaration (r := ⟨_, []⟩) hname
    (show Text.isBlank '"' = false from rfl) hafter
    (by simp [hvalue, h.noSemicolon]) (by simp [hvalue, h.noLineEnd])
  rw [← hfront] at hcursor
  rw [htext, ← hvalue]
  refine ⟨⟨Cursor.start (front ++ [';']), r⟩, ?_, hone, htwo⟩
  refine allMatches_of_first hne hfirst hcursor fun skipped more heq c hc => ?_
  refine ends_declaration_eq_nil fun ch hch => ?_
  have hmem : ch ∈ [';'] := heq ▸ List.mem_append_right skipped (List.mem_of_mem_head? (hc ▸ hch))
  exact List.mem_singleton.1 hmem

/-! ## The suggestion -/

theorem trim_quoted (literal : List Char) :
    Text.trim ('"' :: (literal ++ ['"'])) = '"' :: (literal ++ ['"']) := by
  have hquote : Text.isBlank '"' = false := rfl
  rw [Text.trim, Text.trimStart_cons hquote, ← List.cons_append, Text.trimEnd_concat hquote]

/-- The text of a quoted literal is what stands between its quotes. -/
theorem text?_quoted (h : '"' ∉ literal) :
    Literal.text? (String.ofList ('"' :: (literal ++ ['"']))) = some (String.ofList literal) := by
  refine Literal.text?_eq_some_iff_quoteRuns.2
    ⟨'"', by decide, ?_, fun front rest heq => ?_, fun heq => absurd heq (by decide)⟩
  · rw [String.toList_ofList, String.toList_ofList, trim_quoted]
  · rw [String.toList_ofList] at heq
    exact absurd (heq ▸ List.mem_append_right front List.mem_cons_self) h

/-- The candidate that a declaration of a literal shows. -/
def declared (name literal : List Char) : Candidate where
  name := String.ofList name
  initializer := some (String.ofList ('"' :: (literal ++ ['"'])))

theorem candidatesIn_declarationOf {language : Language}
    (hlanguage : language.candidates = [Language.declaration])
    (hname : isVariableName name = true) (h : Unbroken literal) :
    language.candidatesIn (declarationOf name literal) = [[declared name literal]] := by
  obtain ⟨m, hmatches, hone, htwo⟩ := allMatches_declarationOf hname h
  rw [Language.candidatesIn, hlanguage, List.map_singleton, hmatches, List.map_singleton,
    Candidate.ofMatch, hone, htwo, Option.map_some, trim_quoted]
  rfl

theorem scored_declarationOf {language : Language}
    (hlanguage : language.candidates = [Language.declaration])
    (hname : isVariableName name = true) (h : Unbroken literal) :
    scored language (declarationOf name literal) =
      if isReexport (declared name literal) then [] else [declared name literal] := by
  have hnonempty : (declared name literal).name ≠ "" := by
    intro hempty
    have hnil : name = [] := by simpa [declared] using congrArg String.toList hempty
    simp [hnil, isVariableName] at hname
  rw [scored, candidatesIn_declarationOf hlanguage hname h, List.flatten_singleton]
  cases hreexport : isReexport (declared name literal) <;> simp [hreexport, hnonempty]

theorem suggested_get_foldl_addUsage (names : List String) (file name : String) (f : Findings) :
    ((names.foldl (fun f used => f.addUsage used file) f).get name).suggested =
      (f.get name).suggested := by
  induction names generalizing f with
  | nil => rfl
  | cons used names ih =>
      rw [List.foldl_cons, ih, Findings.addUsage]
      by_cases heq : used = name
      · rw [heq, Findings.get_modify_self, Entry.suggested_addUsage]
      · rw [Findings.get_modify_of_ne f heq]

/-- Suggestions come from the scored candidates alone. -/
theorem suggested_scanText (engine : Engine) (language : Language) (file name : String)
    (text : List Char) :
    ((scanText engine language file text).value.get name).suggested =
      (((scored language (Source.code text language.comments language.markup)).foldl
        (fun f c => recordJudged file f (judge engine c).value)
        ((Usage.namesIn (Source.code text language.comments language.markup)).foldl
          (fun f used => f.addUsage used file) .empty)).get name).suggested := by
  simp only [scanText, Logged.value_bind, Logged.value_pure, Logged.value_mapM, List.foldl_map]

/-- A scored literal is the one suggestion for the declared name, unless the quoted literal reads
the environment; then there is none. -/
theorem suggested_declarationOf {engine : Engine} {language : Language}
    {file name literal : String} {severity : Severity}
    (hlanguage : Language.find? "js" = some language)
    (hname : isVariableName name.toList = true) (hliteral : Unbroken literal.toList)
    (hscore : engine.score name (some literal) = some severity) :
    ((scanText engine language file
        (declarationOf name.toList literal.toList)).value.get name).suggested =
      if Usage.isReference ("\"" ++ literal ++ "\"") then []
      else [{ file, value := some literal, severity := some severity }] := by
  obtain rfl : language = { name := "js", candidates := [Language.declaration] } :=
    (Option.some.inj hlanguage).symm
  have hslash : '/' ∉ name.toList := slash_notMem_of_isVariableName hname
  have hquoted : String.ofList ('"' :: (literal.toList ++ ['"'])) = "\"" ++ literal ++ "\"" :=
    String.toList_injective (by simp)
  have hvalue : (declared name.toList literal.toList).initializer.bind Literal.text? =
      some literal := by
    rw [declared, Option.bind_some, text?_quoted hliteral.noQuote, String.ofList_toList]
  have hjudged : (judge engine (declared name.toList literal.toList)).value =
      { name, literal := some literal, severity := some severity } := by
    rw [value_judge, hvalue, declared, String.ofList_toList, hscore]
  rw [suggested_scanText, code_declarationOf hslash hliteral, scored_declarationOf rfl hname hliteral,
    isReexport, declared, Option.any_some, hquoted]
  split
  · exact suggested_get_foldl_addUsage _ file name .empty
  · rw [List.foldl_cons, List.foldl_nil, ← hquoted, ← declared, hjudged]
    simp only [recordJudged, Findings.addSuggestion, Findings.get_modify_self, Entry.addSuggestion,
      suggested_get_foldl_addUsage _ file name .empty]
    rfl

theorem suggested_declarationOf_password :
    ∃ language, Language.find? "js" = some language ∧ isVariableName "password".toList = true ∧
      Unbroken "hunter2".toList ∧
      Engine.builtIn.score "password" (some "hunter2") = some .critical ∧
      ((scanText .builtIn language "a.js"
        (declarationOf "password".toList "hunter2".toList)).value.get "password").suggested =
        [{ file := "a.js", value := some "hunter2", severity := some .critical }] := by
  have hname : isVariableName "password".toList = true := by decide
  have hliteral : Unbroken "hunter2".toList :=
    ⟨by decide, by decide, by decide, by decide, by decide⟩
  have hscore : Engine.builtIn.score "password" (some "hunter2") = some .critical := by
    decide +kernel
  have hreference : Usage.isReference ("\"" ++ "hunter2" ++ "\"") = false := by decide
  refine ⟨_, rfl, hname, hliteral, hscore, ?_⟩
  rw [suggested_declarationOf rfl hname hliteral hscore, hreference]
  rfl

/-- A password in which a dollar sign stands before a capital is lost. -/
theorem suggested_dollarPassword_eq_nil :
    ∃ language, Language.find? "js" = some language ∧ isVariableName "password".toList = true ∧
      Unbroken "hunter$TWO".toList ∧ (∀ c ∈ ['\'', '\x60', '\\'], c ∉ "hunter$TWO".toList) ∧
      Engine.builtIn.score "password" (some "hunter$TWO") = some .critical ∧
      ((scanText .builtIn language "a.js"
        (declarationOf "password".toList "hunter$TWO".toList)).value.get "password").suggested =
        [] := by
  have hliteral : Unbroken "hunter$TWO".toList :=
    ⟨by decide, by decide, by decide, by decide, by decide⟩
  have hscore : Engine.builtIn.score "password" (some "hunter$TWO") = some .critical := by
    decide +kernel
  refine ⟨_, rfl, by decide, hliteral, by simp, hscore, ?_⟩
  decide +kernel

end EnvAudit.FileScan
