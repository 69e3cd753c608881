import EnvAudit.Dotenv
import Mathlib.Data.List.Basic
import Mathlib.Data.List.TakeWhile

/-!
# Reading a written value back

A value is written as it is, or between double quotes with its backslashes, double quotes and line
feeds escaped.  The first character of the written form tells the two cases apart, so that the value
can be read back from its line.
-/

namespace EnvAudit.Dotenv

/-- Undoes the escapes of a quoted value, from left to right. -/
def unescape : List Char → List Char
  | [] => []
  | '\\' :: '\\' :: rest => '\\' :: unescape rest
  | '\\' :: '"' :: rest => '"' :: unescape rest
  | '\\' :: 'n' :: rest => '\n' :: unescape rest
  | c :: rest => c :: unescape rest

/-- The value that a written form stands for. -/
def decode : List Char → List Char
  | '"' :: rest => unescape rest.dropLast
  | shown => shown

/-- What a line holds behind its first equals sign. -/
def behindName (line : String) : List Char := (line.toList.dropWhile (· != '=')).tail

/-- Puts `new` in the place of each `old`. -/
def replaceAll (old : Char) (new text : List Char) : List Char :=
  text.flatMap fun c => if c = old then new else [c]

variable {name : String} {value : List Char}

theorem unescape_cons {c : Char} (h : c ≠ '\\') (rest : List Char) :
    unescape (c :: rest) = c :: unescape rest := by
  rw [unescape]
  all_goals exact fun _ heq => absurd heq h

theorem encodeChar_of_ne {c : Char} (hslash : c ≠ '\\') (hquote : c ≠ '"') (hnewline : c ≠ '\n') :
    encodeChar c = [c] :=
  encodeChar.eq_4 c hslash hquote hnewline

/-- Escaping character by character is the same as replacing the three characters one after the
other.  The backslash has to come first, as the other two replacements add backslashes. -/
theorem flatMap_encodeChar_eq_replaceAll (value : List Char) :
    value.flatMap encodeChar =
      replaceAll '\n' ['\\', 'n']
        (replaceAll '"' ['\\', '"'] (replaceAll '\\' ['\\', '\\'] value)) := by
  simp only [replaceAll, List.flatMap_assoc]
  refine List.flatMap_congr fun c _ => ?_
  by_cases hslash : c = '\\'
  · rw [hslash]
    rfl
  by_cases hquote : c = '"'
  · rw [hquote]
    rfl
  by_cases hnewline : c = '\n'
  · rw [hnewline]
    rfl
  rw [encodeChar_of_ne hslash hquote hnewline]
  simp [hslash, hquote, hnewline]

theorem unescape_encodeChar_append (c : Char) (rest : List Char) :
    unescape (encodeChar c ++ rest) = c :: unescape rest := by
  by_cases hslash : c = '\\'
  · rw [hslash]
    rfl
  by_cases hquote : c = '"'
  · rw [hquote]
    rfl
  by_cases hnewline : c = '\n'
  · rw [hnewline]
    rfl
  rw [encodeChar_of_ne hslash hquote hnewline, List.singleton_append, unescape_cons hslash]

/-- Escaping is undone exactly: each character becomes a piece that is read as this character,
whatever stands behind it. -/
theorem unescape_flatMap_encodeChar (value : List Char) :
    unescape (value.flatMap encodeChar) = value := by
  induction value with
  | nil => rfl
  | cons c value ih => rw [List.flatMap_cons, unescape_encodeChar_append, ih]

theorem decode_of_head_ne {shown : List Char} (h : shown.head? ≠ some '"') :
    decode shown = shown := by
  rw [decode]
  exact fun rest heq => h (by rw [heq]; rfl)

theorem encode_of_needsQuotes (h : value.any needsQuotes = true) :
    encode value = '"' :: (value.flatMap encodeChar ++ ['"']) := by
  rw [encode, if_pos h]

theorem encode_of_not_needsQuotes (h : ∀ c ∈ value, needsQuotes c = false) :
    encode value = value := by
  rw [encode, if_neg (by simpa using h)]

/-- A value that is written as it is does not look quoted. -/
theorem head_ne_quote (h : ∀ c ∈ value, needsQuotes c = false) : value.head? ≠ some '"' := by
  intro hhead
  have hquote := h '"' (List.mem_of_mem_head? hhead)
  exact absurd hquote (by decide)

theorem decode_encode (value : List Char) : decode (encode value) = value := by
  by_cases hquoted : value.any needsQuotes = true
  · rw [encode_of_needsQuotes hquoted, decode, List.dropLast_concat, unescape_flatMap_encodeChar]
  · have hplain : ∀ c ∈ value, needsQuotes c = false := by simpa using hquoted
    rw [encode_of_not_needsQuotes hplain, decode_of_head_ne (head_ne_quote hplain)]

/-! ## The written form -/

theorem newline_notMem_encodeChar (c : Char) : '\n' ∉ encodeChar c := by
  by_cases hslash : c = '\\'
  · simp [hslash, encodeChar]
  by_cases hquote : c = '"'
  · simp [hquote, encodeChar]
  by_cases hnewline : c = '\n'
  · simp [hnewline, encodeChar]
  simp [encodeChar_of_ne hslash hquote hnewline, Ne.symm hnewline]

theorem newline_notMem_encode (value : List Char) : '\n' ∉ encode value := by
  by_cases hquoted : value.any needsQuotes = true
  · have hbody : '\n' ∉ value.flatMap encodeChar := by
      simp only [List.mem_flatMap, not_exists, not_and]
      exact fun c _ => newline_notMem_encodeChar c
    rw [encode_of_needsQuotes hquoted]
    simp [hbody]
  · have hplain : ∀ c ∈ value, needsQuotes c = false := by simpa using hquoted
    rw [encode_of_not_needsQuotes hplain]
    exact fun hmem => absurd (hplain '\n' hmem) (by decide)

/-- What is written without quotes needs none. -/
theorem needsQuotes_eq_false_of_mem_encode (h : (encode value).head? ≠ some '"') {c : Char}
    (hc : c ∈ encode value) : needsQuotes c = false := by
  by_cases hquoted : value.any needsQuotes = true
  · rw [encode_of_needsQuotes hquoted] at h
    exact absurd rfl h
  · have hplain : ∀ c ∈ value, needsQuotes c = false := by simpa using hquoted
    rw [encode_of_not_needsQuotes hplain] at hc
    exact hplain c hc

theorem behindName_line (hname : '=' ∉ name.toList) (value : Option String) :
    behindName (line name value) = encode (value.getD "").toList := by
  have hequals : "=".toList = ['='] := rfl
  have hfront : ∀ c ∈ name.toList, (c != '=') = true := fun c hc =>
    bne_iff_ne.2 fun heq => hname (heq ▸ hc)
  rw [behindName, line, String.toList_append, String.toList_append, hequals, String.toList_ofList,
    List.append_assoc, List.dropWhile_append_of_pos hfront]
  rfl

/-- A value can be read back from its line, so that no two values share a line.  The escapes of a
quoted value are three replacements.  What is written stays on its line, and what is written without
quotes needs none. -/
theorem decode_behindName_line (name value : String) (hname : '=' ∉ name.toList) :
    line name (some value) = name ++ "=" ++ String.ofList (behindName (line name (some value))) ∧
      (value.toList.any needsQuotes = true →
        behindName (line name (some value)) = '"' :: (replaceAll '\n' ['\\', 'n']
          (replaceAll '"' ['\\', '"'] (replaceAll '\\' ['\\', '\\'] value.toList)) ++ ['"'])) ∧
      decode (behindName (line name (some value))) = value.toList ∧
      '\n' ∉ behindName (line name (some value)) ∧
      ((behindName (line name (some value))).head? ≠ some '"' →
        ∀ c ∈ behindName (line name (some value)),
          Text.isBlank c = false ∧ c ∉ ['#', '\'', '"', '\\']) ∧
      ∀ other more : String, '=' ∉ other.toList →
        line other (some more) = line name (some value) → more = value := by
  have hshown := behindName_line hname (some value)
  rw [Option.getD_some] at hshown
  rw [hshown]
  refine ⟨rfl, fun hquoted => ?_, decode_encode _, newline_notMem_encode _,
    fun hunquoted c hc => ?_, fun other more hother hline => ?_⟩
  · rw [encode_of_needsQuotes hquoted, flatMap_encodeChar_eq_replaceAll]
  · have hplain := needsQuotes_eq_false_of_mem_encode hunquoted hc
    rw [needsQuotes, Bool.or_eq_false_iff, List.contains_eq_mem, decide_eq_false_iff_not] at hplain
    exact hplain
  · have hmore := behindName_line hother (some more)
    rw [Option.getD_some, hline, hshown] at hmore
    have hvalues := congrArg decode hmore
    rw [decode_encode, decode_encode] at hvalues
    exact (String.toList_injective hvalues).symm

/-- A value with a backslash, a double quote and a line feed, one behind the other. -/
theorem decode_behindName_line_escapes :
    '=' ∉ "KEY".toList ∧ line "KEY" (some "a\\\"\nn") = "KEY=\"a\\\\\\\"\\nn\"" ∧
      decode (behindName (line "KEY" (some "a\\\"\nn"))) = "a\\\"\nn".toList :=
  have hname : '=' ∉ "KEY".toList := by decide
  ⟨hname, by decide, (decode_behindName_line "KEY" "a\\\"\nn" hname).2.2.1⟩

end EnvAudit.Dotenv
