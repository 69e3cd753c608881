import EnvAudit.Proofs.Pattern.Names
import EnvAudit.Proofs.Text.Split
import EnvAudit.Proofs.Usage.Form

/-!
# Reads name whole words

What a text reads from the environment is named between marks.  The one exception is an expansion, whose
name ends with its capitals, even where small letters follow.
-/

namespace EnvAudit

open Pattern

namespace Text

variable {text piece : List Char}

theorem mem_getLast?_cons {c first : Char} {front : List Char} (h : c ∈ (first :: front).getLast?) :
    front = [] ∧ c = first ∨ c ∈ front.getLast? := by
  cases front with
  | nil => exact .inl ⟨rfl, by simpa using h.symm⟩
  | cons d front => exact .inr (by simpa using h)

/-- A piece stands between separators or at the ends of the text. -/
theorem exists_of_mem_splitOn {separator : Char} (h : piece ∈ splitOn separator text) :
    ∃ front back, text = front ++ (piece ++ back) ∧ (∀ c ∈ front.getLast?, c = separator) ∧
      ∀ c ∈ back.head?, c = separator := by
  induction hlength : text.length using Nat.strong_induction_on generalizing text with
  | _ length ih =>
      by_cases hmem : separator ∈ text
      · obtain ⟨first, rest, rfl, hfirst⟩ := List.eq_append_cons_of_mem hmem
        rw [splitOn_append_cons, splitOn_of_notMem hfirst, List.singleton_append,
          List.mem_cons] at h
        rcases h with rfl | h
        · exact ⟨[], separator :: rest, rfl, by simp, fun c hc => (Option.some.inj hc).symm⟩
        · have hshorter : rest.length < length := by
            rw [← hlength, List.length_append, List.length_cons]
            omega
          obtain ⟨front, back, rfl, hfront, hback⟩ := ih rest.length hshorter h rfl
          refine ⟨first ++ separator :: front, back, by simp, fun c hc => ?_, hback⟩
          rw [List.getLast?_append_cons] at hc
          exact (mem_getLast?_cons hc).elim And.right (hfront c)
      · rw [splitOn_of_notMem hmem, List.mem_singleton] at h
        exact ⟨[], [], by simp [h], by simp, by simp⟩

/-- Behind what stands in front of a character comes that character, or the text ends. -/
theorem exists_upTo_append (stop : Char) (text : List Char) :
    ∃ rest, text = upTo stop text ++ rest ∧ ∀ c ∈ rest.head?, c = stop := by
  refine ⟨text.dropWhile (· != stop), List.takeWhile_append_dropWhile.symm, fun c hc => ?_⟩
  simpa using stops_dropWhile c hc

end Text

namespace Usage

variable {pre body : Pattern} {code front back name : List Char}

/-- The expansion of a variable behind a dollar sign. -/
def expansion : Pattern :=
  text "$" ++ opt (text "\x7b")
    ++ group 1 (one (.ofRanges [('A', 'Z'), ('_', '_')]) ++ star Language.upperChar)

theorem names_wordEdge (hpre : EndsAfterMark pre) :
    Names BehindMark (pre ++ variableName ++ wordEdge) := by
  refine .assoc (.behind hpre fun r r' hmem => ?_)
  obtain ⟨mid, hmid, hend⟩ := List.mem_flatMap.1 hmem
  obtain ⟨last, hlast, rfl⟩ := List.mem_map.1 hmid
  obtain ⟨hedge, _, rfl, rest, -, rfl⟩ := (reads_edge (.wordEdge false false) _ r').1 hend
  obtain ⟨-, read, ⟨hne, hall⟩, rest', hafter, rfl⟩ := (reads_plus Language.upperChar r last).1 hlast
  refine ⟨⟨1, r.cursor, _⟩, rfl, rfl, Nat.le_add_right _ _, fun ch hch => ?_⟩
  -- The name ends with a word character, so at the edge of the word there is none behind it.
  obtain ⟨front, c, rfl⟩ := (List.eq_nil_or_concat' read).resolve_left hne
  have hword : Text.isWord c = true := isWord_of_isCapital (hall c (by simp))
  have hchange := Form.isAt_wordEdge_iff.1 hedge
  have hbefore : ((front ++ [c]).reverse ++ r.cursor.before).head? = some c := by simp
  have hch : rest'.head? = some ch := hch
  simp only [Reading.close, Reading.pass, hbefore, hch, Option.any_some, hword] at hchange
  exact eq_false_of_ne_true hchange.symm

theorem names_quotedVariable {a : Pattern} {quotes : String}
    (hquotes : (CharClass.ofString quotes).Separators) :
    Names BehindMark (a ++ quotedVariable quotes) :=
  .after (names_behind (.seq (endsAfterMark_one hquotes)) (beginsAtMark_one hquotes) rfl)

theorem names_of_mem : ∀ p ∈ patterns, Names BehindMark p ∨ p = expansion := by
  have hthree : (CharClass.ofString "'\"\x60").Separators := CharClass.separators_ofString (by decide)
  have htwo : (CharClass.ofString "'\"").Separators := CharClass.separators_ofString (by decide)
  have hone : (CharClass.ofString "\"").Separators := CharClass.separators_ofString (by decide)
  have hprocess : EndsAfterMark (text "process.env.") := endsAfterMark_text (by decide) (by decide)
  have himport : EndsAfterMark (text "import.meta.env.") :=
    endsAfterMark_text (by decide) (by decide)
  simp only [patterns, List.forall_mem_cons]
  refine ⟨.inl (names_wordEdge hprocess), .inl (((names_quotedVariable hthree).seq rfl).seq rfl),
    .inl (names_wordEdge himport), .inl (names_quotedVariable htwo),
    .inl (((names_quotedVariable htwo).seq rfl).seq rfl), .inl (names_quotedVariable htwo),
    .inl (names_quotedVariable htwo), .inl (((names_quotedVariable htwo).seq rfl).seq rfl),
    .inl (names_quotedVariable htwo), .inl (names_quotedVariable hone),
    .inl (names_quotedVariable hone), .inr rfl, by simp⟩

theorem least_pos_of_mem : ∀ p ∈ patterns, 0 < p.ownWidth.least := by decide

theorem endsAfterMark_expansionLead : EndsAfterMark (text "$" ++ opt (text "\x7b")) := by
  have hdollar : EndsAfterMark (text "$") := endsAfterMark_text (by decide) (by decide)
  intro r r' hmem
  obtain ⟨mid, hmid, hend⟩ := List.mem_flatMap.1 hmem
  obtain ⟨-, _, rfl | rfl, rest, hafter, rfl⟩ := ((reads_text "\x7b").opt mid r').1 hend
  · exact hdollar r mid hmid
  · exact afterMark_pass [] (by decide)

/-- The name of an expansion ends where its capitals end. -/
theorem exists_capture_expansion {m : Match} (hm : m ∈ expansion.allMatches code) :
    ∃ capture, m.reading.capture? 1 = some capture ∧ capture.start.AfterMark ∧
      capture.start.index ≤ capture.stop.index ∧
        ∀ c ∈ capture.stop.after.head?, isCapital c = false := by
  have hpos : 0 < expansion.ownWidth.least := by decide
  obtain ⟨mid, hmid, hgroup⟩ := (first_of_mem_allMatches hpos hm).of_seq
  obtain ⟨last, hlast, heq⟩ := hgroup.of_group
  obtain ⟨_, -, hstar⟩ := hlast.of_seq
  have hle := advances_ends _ mid last hlast.mem
  exact ⟨⟨1, mid.cursor, last.cursor⟩, by rw [heq]; rfl, endsAfterMark_expansionLead _ mid hmid,
    (Nat.le_add_right _ _).trans hle, hstar.stops_star⟩

theorem names_destructuring : Names BehindMark destructuring := by
  have hbrace : EndsAfterMark (anyText ["const", "let", "var"] ++ blanks ++ text "\x7b") :=
    .seq (endsAfterMark_text (by decide) (by decide))
  exact (((names_behind hbrace (.seq (beginsAtMark_one (CharClass.separators_ofChar (by decide))))
    rfl).seq rfl).seq rfl).seq rfl

/-- A variable that a destructuring list takes stands between marks of the list. -/
theorem exists_of_mem_boundNames {list : List Char} (h : name ∈ boundNames list) :
    ∃ left right, list = left ++ (name ++ right) ∧ (∀ c ∈ left.getLast?, Text.isWord c = false) ∧
      ∀ c ∈ right.head?, Text.isWord c = false := by
  obtain ⟨part, hpart, rfl⟩ := List.mem_map.1 (List.mem_filter.1 h).1
  obtain ⟨front, back, rfl, hfront, hback⟩ := Text.exists_of_mem_splitOn hpart
  obtain ⟨renamed, hpart, hrenamed⟩ := Text.exists_upTo_append ':' part
  obtain ⟨given, htaken, hgiven⟩ := Text.exists_upTo_append '=' (Text.upTo ':' part)
  obtain ⟨left, right, htrim, hleft, hright⟩ :=
    Text.exists_eq_trim (Text.upTo '=' (Text.upTo ':' part))
  refine ⟨front ++ left, right ++ (given ++ (renamed ++ back)), ?_, fun c hc => ?_, fun c hc => ?_⟩
  · calc
      front ++ (part ++ back) = front ++ ((Text.upTo ':' part ++ renamed) ++ back) := by
        rw [← hpart]
      _ = front ++ (((Text.upTo '=' (Text.upTo ':' part) ++ given) ++ renamed) ++ back) := by
        rw [← htaken]
      _ = front ++ ((((left ++ (boundName part ++ right)) ++ given) ++ renamed) ++ back) := by
        rw [boundName, ← htrim]
      _ = _ := by simp only [List.append_assoc]
  · rcases List.eq_nil_or_concat' left with rfl | ⟨more, last, rfl⟩
    · rw [List.append_nil] at hc
      exact hfront c hc ▸ by decide
    · obtain rfl : last = c := by simpa using hc
      exact Text.isWord_of_isBlank (hleft last (by simp))
  · simp only [List.head?_append, Option.mem_def, Option.or_eq_some_iff] at hc
    rcases hc with hc | ⟨-, hc | ⟨-, hc | ⟨-, hc⟩⟩⟩
    · exact Text.isWord_of_isBlank (hright c (List.mem_of_head? hc))
    · exact hgiven c hc ▸ by decide
    · exact hrenamed c hc ▸ by decide
    · exact hback c hc ▸ by decide

/-- A text reads a variable by the name that stands between `front` and `back`. -/
inductive ReadAt (code : List Char) : List Char → List Char → List Char → Prop
  /-- The name is what a match has captured. -/
  | single {p : Pattern} {m : Match} {front name back : List Char} (hp : p ∈ patterns)
    (hm : m ∈ p.allMatches code) (h : m.Captures front back) : ReadAt code front name back
  /-- The name is taken from the list that a match has captured. -/
  | listed {m : Match} {front left name right back : List Char}
    (hm : m ∈ destructuring.allMatches code) (h : m.Captures front back)
    (hname : name ∈ boundNames (left ++ (name ++ right))) :
    ReadAt code (front ++ left) name (right ++ back)

/-- Behind the name of an expansion a small letter follows. -/
def CutsBack (code front back : List Char) : Prop :=
  ∃ m ∈ expansion.allMatches code, m.Captures front back ∧ ∃ c ∈ back.head?, c.isLower = true

theorem isLower_of_not_isCapital {c : Char} (hword : Text.isAsciiWord c = true)
    (h : isCapital c = false) : c.isLower = true := by
  rw [isCapital_eq] at h
  rw [Text.isAsciiWord_eq] at hword
  revert h hword
  cases c.isUpper <;> cases c.isDigit <;> cases c.isLower <;> simp

/-- Every variable that a text reads is named by a whole word, unless an expansion cuts its name off in
front of a small letter. -/
theorem exists_readAt_of_mem_namesIn {name : String} (h : name ∈ namesIn code) :
    ∃ front back, code = front ++ (name.toList ++ back) ∧ ReadAt code front name.toList back ∧
      Text.WholeFront front ∧ (Text.WholeBack back ∨ CutsBack code front back) := by
  obtain ⟨read, hread, rfl⟩ := List.mem_map.1 h
  rw [String.toList_ofList]
  rcases List.mem_append.1 hread with hsingle | hlisted
  · obtain ⟨p, hp, hmem⟩ := List.mem_flatMap.1 hsingle
    obtain ⟨m, hm, rfl⟩ := List.mem_map.1 hmem
    have hwithin := within_allMatches p code m hm
    rcases names_of_mem p hp with hnames | rfl
    · obtain ⟨capture, hname⟩ :=
        hnames _ _ (first_of_mem_allMatches (least_pos_of_mem p hp) hm).mem
      have hread : (m.group? 1).getD [] = capture.text := by rw [Match.group?, hname.capture?]; rfl
      rw [hread]
      exact ⟨_, _, hwithin.reading.eq_append hname.capture? hname.le,
        .single hp hm ⟨capture, hname.capture?, rfl, rfl⟩, hname.start.wholeFront,
        .inl hname.stop.wholeBack⟩
    · obtain ⟨capture, hcapture, hstart, hle, hstop⟩ := exists_capture_expansion hm
      have hread : (m.group? 1).getD [] = capture.text := by rw [Match.group?, hcapture]; rfl
      have hcaptures : m.Captures capture.start.before.reverse capture.stop.after :=
        ⟨capture, hcapture, rfl, rfl⟩
      rw [hread]
      refine ⟨_, _, hwithin.reading.eq_append hcapture hle, .single hp hm hcaptures,
        hstart.wholeFront, or_iff_not_imp_left.2 fun hcut => ⟨m, hm, hcaptures, ?_⟩⟩
      simp only [Text.WholeBack, not_forall, Bool.not_eq_false] at hcut
      obtain ⟨c, hc, hword⟩ := hcut
      exact ⟨c, hc, isLower_of_not_isCapital hword (hstop c hc)⟩
  · obtain ⟨m, hm, hname⟩ := List.mem_flatMap.1 hlisted
    have hwithin := within_allMatches destructuring code m hm
    have hpos : 0 < destructuring.ownWidth.least := by decide
    obtain ⟨capture, hlist⟩ := names_destructuring _ _ (first_of_mem_allMatches hpos hm).mem
    have hread : (m.group? 1).getD [] = capture.text := by rw [Match.group?, hlist.capture?]; rfl
    rw [hread] at hname
    obtain ⟨left, right, heq, hleft, hright⟩ := exists_of_mem_boundNames hname
    have hcode := hwithin.reading.eq_append hlist.capture? hlist.le
    rw [heq] at hcode hname
    refine ⟨_, _, ?_, .listed hm ⟨capture, hlist.capture?, rfl, rfl⟩ hname, fun c hc => ?_,
      .inl fun c hc => ?_⟩
    · rw [hcode]
      simp only [List.append_assoc]
    · rw [List.getLast?_append, Option.mem_def, Option.or_eq_some_iff] at hc
      rcases hc with hc | ⟨-, hc⟩
      · exact Text.isAsciiWord_eq_false (hleft c hc)
      · exact hlist.start.wholeFront c hc
    · rw [List.head?_append, Option.mem_def, Option.or_eq_some_iff] at hc
      rcases hc with hc | ⟨-, hc⟩
      · exact Text.isAsciiWord_eq_false (hright c hc)
      · exact hlist.stop.wholeBack c hc

end Usage

end EnvAudit
