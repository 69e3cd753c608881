import EnvAudit.Proofs.Dotenv.Agreement
import EnvAudit.Proofs.Dotenv.Behind
import EnvAudit.Proofs.Dotenv.Decode
import EnvAudit.Proofs.Result

/-!
# What an environment file defines after adding

Adding to an environment file defines the variables that are written.  No definition reaches from one
line to the next, since each added line holds a cut at its start and at its end.  Only a carriage return
in a value gets around this.  It is written as it is and is a line end when the file is read, so what
follows it in the value stands at the start of a line.
-/

namespace EnvAudit.Dotenv

variable {name other : String} {rest more text value : List Char} {c : Char}

/-! ## An added line -/

/-- A name with an equals sign at the start of a line defines this name and no other one. -/
theorem definesBehind_name_iff (hother : IsName other) :
    DefinesBehind ('\n' :: (other.toList ++ ['='])) name ↔ name = other := by
  constructor
  · rintro ⟨before, text, ⟨lead, ⟨blank, keyword, hblank, rfl, hkeyword⟩, rfl⟩, after, heq⟩
    have hnewline : '\n' ∉ other.toList ++ ['='] := by
      simpa using hother.notMem (show isNameChar '\n' = false by decide)
    obtain rfl : before = [] := by
      cases before with
      | nil => rfl
      | cons first before =>
          rw [(List.cons.inj heq).2] at hnewline
          simp at hnewline
    have heq : other.toList ++ ['='] = blank ++ keyword ++ name.toList ++ ['='] ++ after :=
      (List.cons.inj heq).2
    obtain rfl : after = [] := by
      rcases after.eq_nil_or_concat with rfl | ⟨after, d, rfl⟩
      · rfl
      · rw [List.concat_eq_append, ← List.append_assoc] at heq
        have hequals : '=' ∈ other.toList := by
          rw [(List.append_inj' heq rfl).1]
          simp
        exact absurd hequals (hother.notMem isCut_equals.notName)
    rw [List.append_nil] at heq
    have hwhole := (List.append_inj' heq rfl).1
    have hplain : ∀ c ∈ blank ++ keyword, Text.isBlank c = false := fun c hc =>
      isBlank_of_isNameChar (hother c (hwhole ▸ List.mem_append_left _ hc))
    obtain rfl : blank = [] := List.eq_nil_iff_forall_not_mem.2 fun c hc =>
      absurd (hblank c hc) (by simp [hplain c (List.mem_append_left _ hc)])
    rcases hkeyword with rfl | ⟨gap, ⟨hne, hgap⟩, rfl⟩
    · exact String.toList_injective hwhole.symm
    · obtain ⟨c, hc⟩ := List.exists_mem_of_ne_nil gap hne
      exact absurd (hgap c hc) (by simp [hplain c (by simp [hc])])
  · rintro rfl
    exact ⟨[], name.toList ++ ['='], ⟨[], nil_mem_leads, rfl⟩, [], by simp⟩

theorem notMem_of_not_needsQuotes (h : ∀ c ∈ value, needsQuotes c = false)
    (hc : Text.isBlank c = true) : c ∉ value := by
  intro hmem
  rw [(Bool.or_eq_false_iff.1 (h c hmem)).1] at hc
  cases hc

/-- What follows a written value is read as if the value were not there, the definitions behind line
ends in the value aside. -/
theorem definesBehind_encode_append (hname : IsName name) (value more : List Char) :
    DefinesBehind (Text.unifyNewlines (encode value ++ '\n' :: more)) name ↔
      DefinesBehind (Text.unifyNewlines (encode value)) name ∨
        DefinesBehind ('\n' :: Text.unifyNewlines more) name := by
  have hfeed : Text.unifyNewlines ('\n' :: more) = '\n' :: Text.unifyNewlines more :=
    Text.unifyNewlines_cons_of_ne (by decide) more
  by_cases hquoted : value.any needsQuotes = true
  · have hquote : ∀ rest, Text.unifyNewlines (encode value ++ rest) =
        Text.unifyNewlines ('"' :: value.flatMap encodeChar) ++ '"' :: Text.unifyNewlines rest := by
      intro rest
      rw [encode_of_needsQuotes hquoted, ← Text.unifyNewlines_append_cons (by decide) (by decide)]
      simp
    have hend := hquote []
    rw [List.append_nil] at hend
    rw [hquote, hfeed, hend, definesBehind_append_cons hname isCut_quote]
    rfl
  · have hplain : ∀ c ∈ value, needsQuotes c = false := by simpa using hquoted
    have hreturn : '\r' ∉ value := notMem_of_not_needsQuotes hplain (by decide)
    have hnewline : '\n' ∉ value := notMem_of_not_needsQuotes hplain (by decide)
    rw [encode_of_not_needsQuotes hplain, Text.unifyNewlines_append_of_notMem hreturn, hfeed,
      Text.unifyNewlines_eq_self hreturn, definesBehind_append_of_newline_notMem hnewline,
      or_iff_right (not_definesBehind_of_newline_notMem hnewline)]

/-! ## Values that hold a definition -/

/-- Behind a carriage return of the value a variable is defined, on one line. -/
def Smuggles (value : List Char) (name : String) : Prop :=
  ∃ front, ∃ text ∈ definitions name, ∃ rest, value = front ++ '\r' :: (text ++ rest) ∧ '\n' ∉ text

theorem not_smuggles_of_return_notMem (h : '\r' ∉ value) : ¬ Smuggles value name := by
  rintro ⟨front, text, -, rest, rfl, -⟩
  simp at h

theorem smuggles_cons_iff :
    Smuggles (c :: value) name ↔
      (c = '\r' ∧ ∃ text ∈ definitions name, '\n' ∉ text ∧ text <+: value) ∨ Smuggles value name := by
  constructor
  · rintro ⟨front, text, htext, rest, heq, hnewline⟩
    cases front with
    | nil =>
        obtain ⟨rfl, rfl⟩ := List.cons.inj heq
        exact .inl ⟨rfl, text, htext, hnewline, List.prefix_append text rest⟩
    | cons first front =>
        exact .inr ⟨front, text, htext, rest, (List.cons.inj heq).2, hnewline⟩
  · rintro (⟨rfl, text, htext, hnewline, rest, rfl⟩ | ⟨front, text, htext, rest, rfl, hnewline⟩)
    · exact ⟨[], text, htext, rest, rfl, hnewline⟩
    · exact ⟨c :: front, text, htext, rest, rfl, hnewline⟩

theorem isBlank_lineEndOf (c : Char) : Text.isBlank (Text.lineEndOf c) = Text.isBlank c := by
  rw [Text.lineEndOf]
  split
  · rename_i hreturn
    rw [hreturn]
    decide
  · rfl

/-- What is not blank stays as it is, and nothing else becomes it. -/
theorem map_lineEndOf_eq_iff {shown : List Char} (h : ∀ c ∈ shown, Text.isBlank c = false) :
    text.map Text.lineEndOf = shown ↔ text = shown := by
  have hsame : (∀ c ∈ text, Text.isBlank c = false) → text.map Text.lineEndOf = text := by
    intro hplain
    have hid : ∀ c ∈ text, Text.lineEndOf c = id c := fun c hc =>
      if_neg fun hreturn => absurd (hplain c hc) (by rw [hreturn]; decide)
    rw [List.map_congr_left hid, List.map_id]
  constructor
  · rintro rfl
    refine (hsame fun c hc => ?_).symm
    rw [← isBlank_lineEndOf]
    exact h _ (List.mem_map_of_mem hc)
  · rintro rfl
    exact hsame h

theorem forall_isBlank_map_lineEndOf_iff :
    (∀ c ∈ text.map Text.lineEndOf, Text.isBlank c = true) ↔ ∀ c ∈ text, Text.isBlank c = true := by
  simp only [List.forall_mem_map, isBlank_lineEndOf]

theorem map_lineEndOf_mem_leads_iff : text.map Text.lineEndOf ∈ leads ↔ text ∈ leads := by
  have hexport : ∀ c ∈ "export".toList, Text.isBlank c = false := by decide
  constructor
  · rintro ⟨_, keyword, hblank, heq, hkeyword⟩
    obtain ⟨blank, tail, rfl, rfl, htail⟩ := List.map_eq_append_iff.1 heq
    refine ⟨blank, tail, forall_isBlank_map_lineEndOf_iff.1 hblank, rfl, ?_⟩
    rcases hkeyword with rfl | ⟨_, ⟨hne, hgap⟩, rfl⟩
    · exact .inl (List.map_eq_nil_iff.1 htail)
    · obtain ⟨word, gap, rfl, hword, rfl⟩ := List.map_eq_append_iff.1 htail
      rw [(map_lineEndOf_eq_iff hexport).1 hword]
      exact .inr ⟨gap, ⟨fun hnil => hne (by rw [hnil]; rfl),
        forall_isBlank_map_lineEndOf_iff.1 hgap⟩, rfl⟩
  · rintro ⟨blank, keyword, hblank, rfl, hkeyword⟩
    refine ⟨_, _, forall_isBlank_map_lineEndOf_iff.2 hblank, List.map_append, ?_⟩
    rcases hkeyword with rfl | ⟨gap, ⟨hne, hgap⟩, rfl⟩
    · exact .inl rfl
    · refine .inr ⟨_, ⟨fun hnil => hne (List.map_eq_nil_iff.1 hnil),
        forall_isBlank_map_lineEndOf_iff.2 hgap⟩, ?_⟩
      rw [List.map_append, (map_lineEndOf_eq_iff hexport).2 rfl]

/-- A line end in the place of a carriage return makes no difference to what a text defines. -/
theorem map_lineEndOf_mem_definitions_iff (hname : IsName name) :
    text.map Text.lineEndOf ∈ definitions name ↔ text ∈ definitions name := by
  have hplain : ∀ c ∈ name.toList ++ ['='], Text.isBlank c = false := by
    intro c hc
    rcases List.mem_append.1 hc with hc | hc
    · exact isBlank_of_isNameChar (hname c hc)
    · rw [List.mem_singleton.1 hc]
      decide
  constructor
  · rintro ⟨_, hlead, heq⟩
    rw [List.append_assoc] at heq
    obtain ⟨lead, tail, rfl, rfl, htail⟩ := List.map_eq_append_iff.1 heq
    rw [(map_lineEndOf_eq_iff hplain).1 htail]
    exact ⟨lead, map_lineEndOf_mem_leads_iff.1 hlead, (List.append_assoc ..).symm⟩
  · rintro ⟨lead, hlead, rfl⟩
    refine ⟨_, map_lineEndOf_mem_leads_iff.2 hlead, ?_⟩
    rw [List.append_assoc, List.map_append, (map_lineEndOf_eq_iff hplain).2 rfl, List.append_assoc]

/-! ## Values as they are read back -/

/-- What is read back of a character of a quoted value. -/
def shownChar (c : Char) : List Char := (encodeChar c).map Text.lineEndOf

/-- A character is read back as it is, or behind a backslash. -/
theorem shownChar_cases (c : Char) :
    (c ≠ '\r' ∧ ∃ d ≠ '\n', shownChar c = ['\\', d]) ∨
      (c ≠ '\n' ∧ shownChar c = [Text.lineEndOf c]) := by
  by_cases hslash : c = '\\'
  · subst hslash
    exact .inl ⟨by decide, '\\', by decide, by decide⟩
  by_cases hquote : c = '"'
  · subst hquote
    exact .inl ⟨by decide, '"', by decide, by decide⟩
  by_cases hnewline : c = '\n'
  · subst hnewline
    exact .inl ⟨by decide, 'n', by decide, by decide⟩
  · refine .inr ⟨hnewline, ?_⟩
    rw [shownChar, encodeChar_of_ne hslash hquote hnewline]
    rfl

/-- What is read back without a backslash is what the value holds, line ends aside. -/
theorem exists_prefix_of_prefix_shown (h : text <+: value.flatMap shownChar) (hslash : '\\' ∉ text) :
    ∃ plain, plain <+: value ∧ '\n' ∉ plain ∧ plain.map Text.lineEndOf = text := by
  induction value generalizing text with
  | nil => exact ⟨[], List.nil_prefix, by simp, (List.prefix_nil.1 h).symm⟩
  | cons c value ih =>
      cases text with
      | nil => exact ⟨[], List.nil_prefix, by simp, rfl⟩
      | cons first text =>
          rw [List.mem_cons, not_or] at hslash
          rw [List.flatMap_cons] at h
          rcases shownChar_cases c with ⟨-, d, -, hshown⟩ | ⟨hc, hshown⟩
          · rw [hshown, List.cons_append] at h
            exact absurd (List.cons_prefix_cons.1 h).1.symm hslash.1
          · rw [hshown, List.singleton_append] at h
            obtain ⟨rfl, hrest⟩ := List.cons_prefix_cons.1 h
            obtain ⟨plain, hprefix, hplain, rfl⟩ := ih hrest hslash.2
            exact ⟨c :: plain, (List.prefix_cons_inj c).2 hprefix, by simp [hplain, hc.symm], rfl⟩

theorem flatMap_shownChar_of_notMem (hslash : '\\' ∉ text) (hquote : '"' ∉ text)
    (hnewline : '\n' ∉ text) : text.flatMap shownChar = text.map Text.lineEndOf := by
  rw [List.map_eq_flatMap]
  refine List.flatMap_congr fun c hc => ?_
  have hplain : encodeChar c = [c] := encodeChar_of_ne (fun h => hslash (h ▸ hc))
    (fun h => hquote (h ▸ hc)) fun h => hnewline (h ▸ hc)
  rw [shownChar, hplain]
  rfl

theorem exists_prefix_shown_iff (hname : IsName name) :
    (∃ text ∈ definitions name, text <+: value.flatMap shownChar) ↔
      ∃ text ∈ definitions name, '\n' ∉ text ∧ text <+: value := by
  constructor
  · rintro ⟨text, htext, h⟩
    have hslash := notMem_of_mem_definitions hname htext isCut_slash (by decide)
    obtain ⟨plain, hprefix, hnewline, rfl⟩ := exists_prefix_of_prefix_shown h hslash
    exact ⟨plain, (map_lineEndOf_mem_definitions_iff hname).1 htext, hnewline, hprefix⟩
  · rintro ⟨text, htext, hnewline, rest, rfl⟩
    refine ⟨_, (map_lineEndOf_mem_definitions_iff hname).2 htext, rest.flatMap shownChar, ?_⟩
    have hslash := notMem_of_mem_definitions hname htext isCut_slash (by decide)
    have hquote := notMem_of_mem_definitions hname htext isCut_quote (by decide)
    rw [List.flatMap_append, flatMap_shownChar_of_notMem hslash hquote hnewline]

theorem definesBehind_shown_iff (hname : IsName name) :
    DefinesBehind (value.flatMap shownChar) name ↔ Smuggles value name := by
  induction value with
  | nil =>
      refine iff_of_false not_definesBehind_nil ?_
      exact not_smuggles_of_return_notMem (by simp)
  | cons c value ih =>
      rw [List.flatMap_cons, smuggles_cons_iff, ← ih]
      by_cases hreturn : c = '\r'
      · subst hreturn
        have hshown : shownChar '\r' = ['\n'] := by decide
        rw [hshown, List.singleton_append, definesBehind_newline_cons_iff,
          exists_prefix_shown_iff hname]
        simp
      · have hnewline : '\n' ∉ shownChar c := by
          rcases shownChar_cases c with ⟨-, d, hd, hshown⟩ | ⟨hc, hshown⟩
          · simp [hshown, hd.symm]
          · simp [hshown, Text.lineEndOf, hreturn, hc.symm]
        rw [definesBehind_append_of_newline_notMem hnewline]
        simp [hreturn]

/-- A value defines variables on lines of its own exactly behind its carriage returns. -/
theorem definesBehind_encode_iff (hname : IsName name) (value : List Char) :
    DefinesBehind (Text.unifyNewlines (encode value)) name ↔ Smuggles value name := by
  by_cases hquoted : value.any needsQuotes = true
  · have hshown : (encode value).map Text.lineEndOf =
        ['"'] ++ (value.flatMap shownChar ++ '"' :: []) := by
      rw [encode_of_needsQuotes hquoted, List.map_cons, List.map_append, List.map_flatMap]
      rfl
    rw [Text.unifyNewlines_of_notMem (newline_notMem_encode value), hshown,
      definesBehind_append_of_newline_notMem (by decide),
      definesBehind_append_cons_of_ne hname isCut_quote (by decide), definesBehind_shown_iff hname,
      or_iff_left not_definesBehind_nil]
  · have hplain : ∀ c ∈ value, needsQuotes c = false := by simpa using hquoted
    have hreturn : '\r' ∉ value := notMem_of_not_needsQuotes hplain (by decide)
    have hnewline : '\n' ∉ value := notMem_of_not_needsQuotes hplain (by decide)
    rw [encode_of_not_needsQuotes hplain, Text.unifyNewlines_eq_self hreturn]
    exact iff_of_false (not_definesBehind_of_newline_notMem hnewline)
      (not_smuggles_of_return_notMem hreturn)

/-! ## Added lines -/

/-- The added lines, each with its line feed. -/
def linesOf (added : List (String × Option String)) : List Char :=
  added.flatMap fun item => (line item.1 item.2).toList ++ ['\n']

theorem intercalate_newline_append {texts : List (List Char)} (h : texts ≠ []) :
    ['\n'].intercalate texts ++ ['\n'] = texts.flatMap (· ++ ['\n']) := by
  induction texts with
  | nil => exact absurd rfl h
  | cons first texts ih =>
      by_cases hnil : texts = []
      · subst hnil
        simp
      · rw [List.intercalate_cons_of_ne_nil hnil, List.append_assoc, ih hnil, List.flatMap_cons]

theorem toList_addedText {added : List (String × Option String)} (h : added ≠ []) :
    (addedText added).toList = header.toList ++ linesOf added := by
  have hnewline : "\n".toList = ['\n'] := rfl
  have hne : (added.map fun item => line item.1 item.2).map String.toList ≠ [] := by simpa using h
  rw [addedText, String.toList_append, String.toList_append, String.toList_intercalate, hnewline,
    List.append_assoc, intercalate_newline_append hne, List.map_map, List.flatMap_map]
  rfl

/-- Added lines define the variables they are for, and what their values smuggle in. -/
theorem definesBehind_linesOf_iff (hname : IsName name) {added : List (String × Option String)}
    (hadded : ∀ item ∈ added, IsName item.1) :
    DefinesBehind ('\n' :: Text.unifyNewlines (linesOf added)) name ↔
      ∃ item ∈ added, name = item.1 ∨ Smuggles (item.2.getD "").toList name := by
  induction added with
  | nil =>
      have hnone : ¬ DefinesBehind ([] ++ ['\n']) name := fun h =>
        not_definesBehind_nil ((definesBehind_append_of_equals_notMem hname (by decide)).1 h)
      simpa [linesOf, Text.unifyNewlines] using hnone
  | cons item added ih =>
      have hitem : IsName item.1 := hadded item List.mem_cons_self
      have hreturn : '\r' ∉ item.1.toList := hitem.notMem (by decide)
      have hlines : linesOf (item :: added) = item.1.toList ++
          '=' :: (encode (item.2.getD "").toList ++ '\n' :: linesOf added) := by
        have hequals : "=".toList = ['='] := rfl
        rw [linesOf, List.flatMap_cons, line, String.toList_append, String.toList_append, hequals,
          String.toList_ofList]
        simp only [List.append_assoc, List.cons_append, List.nil_append]
        rfl
      have hrest := ih fun other hother => hadded other (List.mem_cons_of_mem _ hother)
      rw [hlines, Text.unifyNewlines_append_of_notMem hreturn,
        Text.unifyNewlines_cons_of_ne (show '=' ≠ '\r' by decide), ← List.cons_append,
        definesBehind_append_cons hname isCut_equals, List.cons_append, definesBehind_name_iff hitem,
        definesBehind_encode_append hname, definesBehind_encode_iff hname, hrest, List.exists_mem_cons_iff,
        or_assoc]

theorem header_eq :
    ∃ body, header.toList = '\n' :: (body ++ '.' :: ['\n']) ∧ '=' ∉ body ∧ '\r' ∉ body := by
  refine ⟨header.toList.tail.dropLast.dropLast, ?_, ?_, ?_⟩ <;> decide +kernel

/-- Behind added lines a file defines what it defined before, the added variables, and what their values
smuggle in. -/
theorem defines_addedText_iff (hname : IsName name) {added : List (String × Option String)}
    (hne : added ≠ []) (hadded : ∀ item ∈ added, IsName item.1) (raw : List Char) :
    defines (Text.unifyNewlines (raw ++ (addedText added).toList)) name = true ↔
      defines (Text.unifyNewlines raw) name = true ∨
        ∃ item ∈ added, name = item.1 ∨ Smuggles (item.2.getD "").toList name := by
  obtain ⟨body, hheader, hequals, hreturn⟩ := header_eq
  obtain ⟨feed, hfeed, hsubset⟩ := Text.exists_unifyNewlines_concat raw
  have hgap : '=' ∉ feed ++ body := by
    rw [List.mem_append, not_or]
    exact ⟨fun hmem => absurd (hsubset hmem) (by decide), hequals⟩
  have htext : '\n' :: Text.unifyNewlines (raw ++ (addedText added).toList) =
      '\n' :: Text.unifyNewlines raw ++ (feed ++ body) ++
        '.' :: '\n' :: Text.unifyNewlines (linesOf added) := by
    rw [toList_addedText hne, hheader, List.cons_append, List.append_assoc,
      Text.unifyNewlines_append_newline, hfeed, Text.unifyNewlines_append_of_notMem hreturn,
      List.cons_append, Text.unifyNewlines_cons_of_ne (show '.' ≠ '\r' by decide),
      List.singleton_append, Text.unifyNewlines_cons_of_ne (show '\n' ≠ '\r' by decide)]
    simp only [List.append_assoc, List.cons_append]
  rw [defines_iff_definesBehind, htext, definesBehind_append_cons_of_ne hname isCut_period (by decide),
    definesBehind_append_of_equals_notMem hname hgap, definesBehind_linesOf_iff hname hadded,
    defines_iff_definesBehind]

/-! ## A call -/

variable {fs : FileSystem} {p : Path} {f : Findings} {test : IgnoreTest} {outcome : Outcome}

/-- The variables that a content defines. -/
def definedNames (content : List Char) : Set String :=
  {name | IsName name ∧ defines content name = true}

/-- The value that is written for a name. -/
def valueOf (f : Findings) (name : String) : List Char := ((f.get name).value?.getD "").toList

theorem exists_content_of_append (h : append fs p f test = .ok outcome) :
    ∃ text, content fs p = .ok text := by
  cases hcontent : content fs p with
  | error cause => simp [append, hcontent, bind, Except.bind] at h
  | ok text => exact ⟨text, rfl⟩

theorem exists_ignored_of_append (hcontent : content fs p = .ok text)
    (h : append fs p f test = .ok outcome) :
    ∃ ignored : String → Bool, outcome.written = (additions text f ignored).map (·.1) ∧
      (outcome.written = [] → outcome.fileSystem = fs) ∧ (outcome.written ≠ [] →
        fs.append p (addedText (additions text f ignored)) = .ok outcome.fileSystem) := by
  cases hignored : test.ignoredNames (fun e => e.suggested.map (·.file)) (missing text f) with
  | error cause => simp [append, hcontent, hignored, bind, Except.bind] at h
  | ok ignored =>
      simp only [append, hcontent, hignored, bind, Except.bind] at h
      refine ⟨ignored.contains, ?_⟩
      split at h
      · rename_i hempty
        obtain rfl := Except.ok.inj h
        exact ⟨rfl, fun _ => rfl, fun hne => absurd (List.isEmpty_iff.1 hempty) hne⟩
      · rename_i hempty
        split at h
        · cases h
        · rename_i fs' happend
          obtain rfl := Except.ok.inj h
          exact ⟨rfl, fun hnil => absurd (List.isEmpty_iff.2 hnil) hempty, fun _ => happend⟩

theorem of_mem_additions (hnodup : f.names.Nodup) {ignored : String → Bool}
    {item : String × Option String} (h : item ∈ additions text f ignored) :
    item.1 ∈ f.names ∧ item.2 = (f.get item.1).value? := by
  obtain ⟨⟨name, e⟩, hitem, rfl⟩ := List.mem_map.1 h
  obtain ⟨hentry, -, -⟩ := mem_missing_iff.1 (List.mem_filter.1 hitem).1
  obtain ⟨hmem, rfl⟩ := (Findings.mem_sortedEntries_iff hnodup).1 hentry
  exact ⟨hmem, rfl⟩

/-- Adding defines the variables that are returned and what their values smuggle in. -/
theorem exists_definedNames_eq (hfs : fs.Sound) (hnodup : f.names.Nodup)
    (hnames : ∀ name ∈ f.names, IsName name) (hcontent : content fs p = .ok text)
    (h : append fs p f test = .ok outcome) :
    ∃ more, content outcome.fileSystem p = .ok more ∧
      definedNames more = definedNames text ∪ {name | IsName name ∧
        ∃ other ∈ outcome.written, name = other ∨ Smuggles (valueOf f other) name} := by
  obtain ⟨ignored, hwritten, hkept, happended⟩ := exists_ignored_of_append hcontent h
  by_cases hnil : outcome.written = []
  · refine ⟨text, by rw [hkept hnil, hcontent], ?_⟩
    ext name
    simp [hnil]
  · obtain ⟨raw, hraw, rfl⟩ := content_eq_ok_iff.1 hcontent
    have hafter := hraw.append hfs (happended hnil)
    refine ⟨_, content_eq_ok_iff.2 ⟨_, hafter, rfl⟩, ?_⟩
    have hne : additions (Text.unifyNewlines raw) f ignored ≠ [] := fun hadded =>
      hnil (by rw [hwritten, hadded]; rfl)
    have hadded : ∀ item ∈ additions (Text.unifyNewlines raw) f ignored, IsName item.1 :=
      fun item hitem => hnames _ (of_mem_additions hnodup hitem).1
    ext name
    rw [definedNames, definedNames, Set.mem_union]
    simp only [Set.mem_ofPred_eq]
    rw [← and_or_left]
    refine and_congr_right fun hname => ?_
    rw [defines_addedText_iff hname hne hadded, hwritten]
    simp only [List.mem_map, exists_exists_and_eq_and]
    refine or_congr_right (exists_congr fun item => and_congr_right fun hitem => ?_)
    rw [(of_mem_additions hnodup hitem).2, valueOf]

/-- Adding to an environment file that holds a text or is not there yet succeeds where the file can be
written.  Afterwards the file defines what it defined before, the variables that are returned, and those
that stand behind a carriage return of a value that is written; without carriage returns in these values
there are none of the last kind. -/
theorem definedNames_append (hfs : fs.Sound) (hnodup : f.names.Nodup)
    (hnames : ∀ name ∈ f.names, IsName name) :
    (∀ raw callback, IsText fs p raw → (∃ place, fs.Writable p place) →
      ∃ outcome, append fs p f (.ofCallback callback) = .ok outcome) ∧
      ∀ test outcome, append fs p f test = .ok outcome →
        ∃ text more, content fs p = .ok text ∧ content outcome.fileSystem p = .ok more ∧
          definedNames more = definedNames text ∪ {name | name ∈ outcome.written} ∪
            {name | IsName name ∧ ∃ other ∈ outcome.written, Smuggles (valueOf f other) name} ∧
          ((∀ name ∈ outcome.written, '\r' ∉ valueOf f name) →
            definedNames more = definedNames text ∪ {name | name ∈ outcome.written}) := by
  constructor
  · rintro raw callback hraw ⟨place, hplace⟩
    exact Call.exists_append_ofCallback hraw hplace ⟨f, callback⟩
  · intro test outcome happend
    obtain ⟨text, hcontent⟩ := exists_content_of_append happend
    obtain ⟨more, hmore, heq⟩ := exists_definedNames_eq hfs hnodup hnames hcontent happend
    have hwritten : ∀ name ∈ outcome.written, IsName name := by
      obtain ⟨ignored, hwritten, -, -⟩ := exists_ignored_of_append hcontent happend
      intro name hname
      rw [hwritten] at hname
      obtain ⟨item, hitem, rfl⟩ := List.mem_map.1 hname
      exact hnames _ (of_mem_additions hnodup hitem).1
    have hsplit : definedNames more = definedNames text ∪ {name | name ∈ outcome.written} ∪
        {name | IsName name ∧ ∃ other ∈ outcome.written, Smuggles (valueOf f other) name} := by
      rw [heq, Set.union_assoc]
      congr 1
      ext name
      simp only [Set.mem_ofPred_eq, Set.mem_union]
      constructor
      · rintro ⟨hname, other, hother, rfl | hsmuggles⟩
        · exact .inl hother
        · exact .inr ⟨hname, other, hother, hsmuggles⟩
      · rintro (hname | ⟨hname, other, hother, hsmuggles⟩)
        · exact ⟨hwritten name hname, name, hname, .inl rfl⟩
        · exact ⟨hname, other, hother, .inr hsmuggles⟩
    refine ⟨text, more, hcontent, hmore, hsplit, fun hreturn => ?_⟩
    rw [hsplit, Set.union_eq_left]
    rintro name ⟨-, other, hother, hsmuggles⟩
    exact absurd hsmuggles (not_smuggles_of_return_notMem (hreturn other hother))

theorem sound_hostFiles : hostFiles.Sound := by decide

theorem bytes?_hostFiles :
    hostFiles.bytes? ⟨.here, [".env"]⟩ = some "export HOST=a\r\nPORT=1".toUTF8 := by
  decide +kernel

theorem isText_hostFiles : IsText hostFiles ⟨.here, [".env"]⟩ "export HOST=a\r\nPORT=1".toList :=
  .inr ⟨_, bytes?_hostFiles, by decide⟩

theorem definedNames_append_hostFiles :
    hostFiles.Sound ∧ hostRound.findings.names.Nodup ∧
      (∀ name ∈ hostRound.findings.names, IsName name) ∧ ∃ outcome text more,
        append hostFiles ⟨.here, [".env"]⟩ hostRound.findings .nothing = .ok outcome ∧
          content hostFiles ⟨.here, [".env"]⟩ = .ok text ∧
            content outcome.fileSystem ⟨.here, [".env"]⟩ = .ok more ∧
              definedNames more = definedNames text ∪ {name | name ∈ outcome.written} := by
  have hnodup : hostRound.findings.names.Nodup := by decide
  have hnames : ∀ name ∈ hostRound.findings.names, IsName name := by decide
  have hreturn : ∀ name ∈ hostRound.findings.names, '\r' ∉ valueOf hostRound.findings name := by
    decide
  obtain ⟨hreturns, hdefined⟩ := definedNames_append sound_hostFiles hnodup hnames
  obtain ⟨outcome, happend⟩ :=
    hreturns _ none isText_hostFiles (FileSystem.exists_writable_of_bytes? bytes?_hostFiles)
  rw [IgnoreTest.ofCallback_none] at happend
  obtain ⟨text, more, hcontent, hmore, -, heq⟩ := hdefined _ outcome happend
  refine ⟨sound_hostFiles, hnodup, hnames, outcome, text, more, happend, hcontent, hmore, heq ?_⟩
  intro name hname
  obtain ⟨ignored, hwritten, -, -⟩ := exists_ignored_of_append hcontent happend
  rw [hwritten] at hname
  obtain ⟨item, hitem, rfl⟩ := List.mem_map.1 hname
  exact hreturn _ (of_mem_additions hnodup hitem).1

/-- A working directory without an environment file. -/
def bareDirectory : FileSystem where
  root := .dir [("work", .dir [])]
  cwd := ["work"]

/-- Findings with a value in which a definition follows a carriage return. -/
def returnFindings : Findings := ⟨[("KEY", { suggested := [⟨"a.js", some "a\rFOO=b", some .high⟩] })]⟩

/-- A value with a carriage return defines a variable that is not returned. -/
theorem definedNames_append_returnFindings :
    bareDirectory.Sound ∧ returnFindings.names.Nodup ∧ (∀ name ∈ returnFindings.names, IsName name) ∧
      ∃ outcome more,
        append bareDirectory ⟨.here, [".env"]⟩ returnFindings .nothing = .ok outcome ∧
          outcome.written = ["KEY"] ∧ content bareDirectory ⟨.here, [".env"]⟩ = .ok [] ∧
            content outcome.fileSystem ⟨.here, [".env"]⟩ = .ok more ∧ "FOO" ∈ definedNames more ∧
              definedNames more ≠ definedNames [] ∪ {name | name ∈ outcome.written} := by
  have hsound : bareDirectory.Sound := by decide
  have hcontent : content bareDirectory ⟨.here, [".env"]⟩ = .ok [] := by decide +kernel
  have hnodup : returnFindings.names.Nodup := by decide
  have hnames : ∀ name ∈ returnFindings.names, IsName name := by decide
  have hmissing : missingNames [] returnFindings = ["KEY"] := by decide +kernel
  have hok : (append bareDirectory ⟨.here, [".env"]⟩ returnFindings .nothing).isOk = true := by
    decide +kernel
  obtain ⟨outcome, happend⟩ := isOk_iff.1 hok
  obtain ⟨text, hadded⟩ := exists_added happend
  obtain rfl : text = [] := Except.ok.inj (hadded.hadText.symm.trans hcontent)
  have hwritten : outcome.written = ["KEY"] := hadded.written_eq.trans hmissing
  obtain ⟨more, hmore, heq⟩ := exists_definedNames_eq hsound hnodup hnames hcontent happend
  have hsmuggles : Smuggles (valueOf returnFindings "KEY") "FOO" :=
    ⟨['a'], "FOO=".toList, ⟨[], nil_mem_leads, by decide⟩, ['b'], by decide, by decide⟩
  have hdefined : "FOO" ∈ definedNames more := by
    rw [heq, hwritten]
    exact .inr ⟨by decide, "KEY", List.mem_singleton_self _, .inr hsmuggles⟩
  have hundefined : "FOO" ∉ definedNames [] ∪ {name | name ∈ outcome.written} := by
    have hempty : defines [] "FOO" = false := by decide +kernel
    simp [definedNames, hempty, hwritten]
  exact ⟨hsound, hnodup, hnames, outcome, more, happend, hwritten, hcontent, hmore, hdefined,
    fun hsame => hundefined (hsame ▸ hdefined)⟩

end EnvAudit.Dotenv
