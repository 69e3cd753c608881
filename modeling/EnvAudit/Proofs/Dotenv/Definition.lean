import EnvAudit.Dotenv
import EnvAudit.Proofs.Pattern.Reads
import EnvAudit.Proofs.Text.Newline

/-!
# Definitions in an environment file

A variable is defined where its name and an equals sign stand at the start of a line, possibly behind
blanks and the keyword that exports it.  Adding to the end of a file keeps all definitions, and each
added variable is defined by its line.
-/

namespace EnvAudit.Dotenv

variable {content front rest : List Char} {name : String}

/-- Blanks, with or without the keyword that exports a variable behind them. -/
def leads : Set (List Char) :=
  {lead | ∃ blank keyword, (∀ c ∈ blank, Text.isBlank c = true) ∧ lead = blank ++ keyword ∧
    (keyword = [] ∨ ∃ gap, (gap ≠ [] ∧ ∀ c ∈ gap, Text.isBlank c = true) ∧
      keyword = "export".toList ++ gap)}

/-- The texts that define a variable at the start of a line. -/
def definitions (name : String) : Set (List Char) :=
  {text | ∃ lead ∈ leads, text = lead ++ name.toList ++ ['=']}

theorem nil_mem_leads : [] ∈ leads := ⟨[], [], by simp, rfl, .inl rfl⟩

theorem reads_definition (name : String) :
    Pattern.Reads (fun c => c.isAt .lineStart = true) (definition name) (definitions name) := by
  have hexport := (Pattern.reads_text "export").seq (Pattern.reads_plus .blank)
  have hlead := ((Pattern.reads_edge .lineStart).seq (Pattern.reads_star .blank)).seq hexport.opt
  have hall := (hlead.seq (Pattern.reads_text name)).seq (Pattern.reads_text "=")
  simp only [Set.image2_singleton_left, Set.image2_singleton_right, List.nil_append,
    Set.image_id', CharClass.admits_blank] at hall
  have hset : definitions name =
      (· ++ "=".toList) '' ((· ++ name.toList) '' Set.image2 (· ++ ·)
        {front | ∀ c ∈ front, Text.isBlank c = true}
        (insert [] (("export".toList ++ ·) ''
          {front | front ≠ [] ∧ ∀ c ∈ front, Text.isBlank c = true}))) := by
    ext text
    simp only [definitions, leads, Set.mem_ofPred_eq, Set.mem_image, Set.mem_image2,
      Set.mem_insert_iff]
    constructor
    · rintro ⟨_, ⟨blank, keyword, hblank, rfl, hkeyword⟩, rfl⟩
      refine ⟨_, ⟨_, ⟨blank, hblank, keyword, ?_, rfl⟩, rfl⟩, rfl⟩
      exact hkeyword.imp id fun ⟨gap, hgap, heq⟩ => ⟨gap, hgap, heq.symm⟩
    · rintro ⟨_, ⟨_, ⟨blank, hblank, keyword, hkeyword, rfl⟩, rfl⟩, rfl⟩
      refine ⟨_, ⟨blank, keyword, hblank, rfl, ?_⟩, rfl⟩
      exact hkeyword.imp id fun ⟨gap, hgap, heq⟩ => ⟨gap, hgap, heq.symm⟩
  rw [hset]
  exact hall

/-- Behind a text a line begins. -/
def EndsLine (front : List Char) : Prop := front = [] ∨ ∃ before, front = before ++ ['\n']

theorem isAt_lineStart_iff {after : List Char} {index : Nat} :
    (⟨front.reverse, after, index⟩ : Cursor).isAt .lineStart = true ↔ EndsLine front := by
  rw [Cursor.isAt, Bool.or_eq_true, List.isEmpty_reverse, List.isEmpty_iff, beq_iff_eq,
    List.head?_reverse, List.getLast?_eq_some_iff]
  rfl

theorem defines_iff : defines content name = true ↔
    ∃ front, ∃ text ∈ definitions name, ∃ rest, content = front ++ (text ++ rest) ∧
      EndsLine front := by
  rw [defines, (reads_definition name).occursIn_iff]
  simp only [isAt_lineStart_iff]

/-- What is added to the end of a content takes away no definition. -/
theorem defines_of_prefix {more : List Char} (h : content <+: more)
    (hdefines : defines content name = true) : defines more name = true := by
  obtain ⟨front, text, htext, rest, rfl, hline⟩ := defines_iff.1 hdefines
  obtain ⟨added, rfl⟩ := h
  refine defines_iff.2 ⟨front, text, htext, rest ++ added, ?_, hline⟩
  simp only [List.append_assoc]

/-- A name with an equals sign at the start of a line is a definition. -/
theorem defines_of_line (h : EndsLine front) :
    defines (front ++ (name.toList ++ '=' :: rest)) name = true := by
  refine defines_iff.2 ⟨front, name.toList ++ ['='], ⟨[], nil_mem_leads, rfl⟩, rest, ?_, h⟩
  rw [List.append_assoc, List.singleton_append]

/-! ## Added lines -/

theorem header_endsLine : ∃ before, header.toList = before ++ ['\n'] := by
  have hend : "fill in any\n# values the scanner could not capture.\n".toList.getLast? = some '\n' := by
    simp
  have happend : header.toList = _ := String.toList_append
  refine List.getLast?_eq_some_iff.1 ?_
  rw [happend, List.getLast?_append, hend]
  rfl

/-- Each of some texts stands at the start of a line, when they are joined by line feeds. -/
theorem exists_intercalate_eq {texts : List (List Char)} {text : List Char} (h : text ∈ texts) :
    ∃ front rest, ['\n'].intercalate texts = front ++ (text ++ rest) ∧ EndsLine front := by
  induction texts with
  | nil => simp at h
  | cons first texts ih =>
      rcases List.mem_cons.1 h with rfl | hmem
      · cases texts with
        | nil => exact ⟨[], [], by simp, .inl rfl⟩
        | cons second texts =>
            exact ⟨[], '\n' :: ['\n'].intercalate (second :: texts), by simp, .inl rfl⟩
      · obtain ⟨front, rest, heq, hline⟩ := ih hmem
        have hne : texts ≠ [] := List.ne_nil_of_mem hmem
        have hcons : ['\n'].intercalate (first :: texts) =
            first ++ ['\n'] ++ front ++ (text ++ rest) := by
          rw [List.intercalate_cons_of_ne_nil hne, heq]
          simp
        refine ⟨_, rest, hcons, .inr ?_⟩
        rcases hline with rfl | ⟨before, rfl⟩
        · exact ⟨first, by simp⟩
        · exact ⟨first ++ ['\n'] ++ before, by simp⟩

theorem EndsLine.append (h : EndsLine rest) (hfront : ∃ before, front = before ++ ['\n']) :
    ∃ before, front ++ rest = before ++ ['\n'] := by
  rcases h with rfl | ⟨before, rfl⟩
  · rwa [List.append_nil]
  · exact ⟨front ++ before, (List.append_assoc ..).symm⟩

/-- The line of each added variable begins behind a line feed. -/
theorem exists_addedText_eq {added : List (String × Option String)} {value : Option String}
    (h : (name, value) ∈ added) :
    ∃ front rest, (addedText added).toList = front ++ '\n' :: (name.toList ++ '=' :: rest) := by
  have hline : (line name value).toList ∈
      (added.map fun item => line item.1 item.2).map String.toList :=
    List.mem_map_of_mem (List.mem_map.2 ⟨(name, value), h, rfl⟩)
  obtain ⟨front, rest, heq, hends⟩ := exists_intercalate_eq hline
  obtain ⟨before, hbefore⟩ := hends.append header_endsLine
  have hnewline : "\n".toList = ['\n'] := rfl
  have hequals : "=".toList = ['='] := rfl
  refine ⟨before, encode (value.getD "").toList ++ (rest ++ ['\n']), ?_⟩
  rw [addedText, String.toList_append, String.toList_append, String.toList_intercalate, hnewline,
    heq, ← List.append_assoc header.toList, hbefore, line, String.toList_append,
    String.toList_append, hequals, String.toList_ofList]
  simp only [List.append_assoc, List.cons_append, List.nil_append]

/-- A variable is defined once its line is added, whatever the text stood in before. -/
theorem defines_addedText {added : List (String × Option String)} {value : Option String}
    (hname : '\r' ∉ name.toList) (h : (name, value) ∈ added) (text : List Char) :
    defines (Text.unifyNewlines (text ++ (addedText added).toList)) name = true := by
  obtain ⟨front, rest, heq⟩ := exists_addedText_eq h
  obtain ⟨before, hbefore⟩ := Text.unifyNewlines_concat_newline (text ++ front)
  rw [heq, ← List.append_assoc, Text.unifyNewlines_append_newline, hbefore,
    Text.unifyNewlines_append_of_notMem hname,
    Text.unifyNewlines_cons_of_ne (show '=' ≠ '\r' by decide)]
  exact defines_of_line (.inr ⟨before, rfl⟩)

end EnvAudit.Dotenv
