import EnvAudit.Proofs.Pattern.Advance
import EnvAudit.Proofs.Pattern.Within
import EnvAudit.Proofs.Usage.Accessors

/-!
# Lists of variables

A declaration that takes several variables out of the process environment is a form as well: its lead
is the keyword, and its name is the list between the braces.  The names that a text reads consist of
capitals, whether they stand alone or in a list.
-/

namespace EnvAudit.Usage

open Pattern

namespace Form

/-- What stands between a list and the process environment. -/
def listEnds : Set (List Char) :=
  Set.image2 (· ++ ·) (Set.image2 (· ++ ·) {[]} {"\x7d".toList})
    (Set.image2 (· ++ ·) (Set.image2 (· ++ ·) blankTexts {"=".toList}) blankTexts)

/-- A list of variables that are taken out of the process environment. -/
def listing : Form where
  opens := false
  leads := ["const".toList, "let".toList, "var".toList]
  gaps := {gap | ∃ blank ∈ blankTexts, gap = blank ++ ['\x7b']}
  names := {list | list ≠ [] ∧ ∀ c ∈ list, (CharClass.ofChar '}').complement.admits c = true}
  tails := Set.image2 (· ++ ·) listEnds {"process.env".toList}
  stops := Text.isWord

theorem getLast?_listing {front tail : List Char} (h : tail ∈ listing.tails) :
    (front ++ tail).getLast? = some 'v' := by
  obtain ⟨more, -, _, rfl, rfl⟩ := h
  rw [← List.append_assoc]
  simp

theorem reads_keyword : ReadsAnywhere (anyText ["const", "let", "var"])
    {text | text ∈ listing.leads} := by
  have hset : {"const".toList} ∪ ({"let".toList} ∪ {"var".toList}) = {text | text ∈ listing.leads} := by
    ext text
    have hleads : text ∈ listing.leads ↔
        text = "const".toList ∨ text = "let".toList ∨ text = "var".toList := by
      simp [listing]
    exact hleads.symm
  have halt := (reads_text "const").alt ((reads_text "let").alt (reads_text "var"))
  rwa [hset] at halt

theorem listing_describes : listing.Describes destructuring := by
  have hlist : ReadsNamedAnywhere (group 1 (plus (CharClass.ofChar '}').complement)) {[]}
      listing.names {[]} := (reads_plus _).named
  have hlead := ((reads_keyword.seq reads_blanks).seq (reads_text "\x7b")).lead hlist
  have hequals := (reads_blanks.seq (reads_text "=")).seq reads_blanks
  have hp := (((hlead.tail (reads_text "\x7d")).tail hequals).tail
    (reads_text "process.env")).edge (.wordEdge false false)
  refine describes_of_readsNamed hp ?_ (by simp [listing]) ?_ ?_
  · intro text
    constructor
    · rintro ⟨_, ⟨_, ⟨lead, hlead, blank, hblank, rfl⟩, _, rfl, rfl⟩, _, rfl, rfl⟩
      exact ⟨lead, hlead, _, ⟨blank, hblank, rfl⟩, by simp⟩
    · rintro ⟨lead, hlead, _, ⟨blank, hblank, rfl⟩, rfl⟩
      exact ⟨_, ⟨_, ⟨lead, hlead, blank, hblank, rfl⟩, _, rfl, rfl⟩, [], rfl, by simp⟩
  · intro c r hfirst
    obtain ⟨-, _, -, name, -, tail, htail, rest, -, hedge, rfl⟩ := (hp _ r).1 hfirst.mem
    have hrest := (isAt_wordEdge_named_iff (getLast?_listing htail) (by decide)).1 hedge
    rw [Reading.cursor_named]
    exact hrest
  · intro c lead gap name tail rest h
    exact (isAt_wordEdge_named_iff (getLast?_listing h.mem_tails) (by decide)).2 h.stops

theorem listing_marked : listing.Marked := by
  rintro lead hlead _ ⟨blank, hblank, rfl⟩ name - tail htail
  refine ⟨lead ++ blank, '\x7b', name ++ tail, by simp, by decide, fun c hc => ?_,
    fun h => absurd h (by decide), fun h => absurd rfl h, fun c hc => ?_⟩
  · rcases List.mem_append.1 hc with hc | hc
    · exact (by decide : ∀ lead ∈ listing.leads, ∀ c ∈ lead, c ∉ Literal.quotes) lead hlead c hc
    · intro hquote
      have hvisible : ∀ c ∈ Literal.quotes, Text.isBlank c = false := by decide
      exact absurd (hblank c hc) (by simp [hvisible c hquote])
  · rw [← List.cons_append, getLast?_listing htail] at hc
    exact Option.some.inj hc ▸ by decide

end Form

/-- All patterns that read variables. -/
def allPatterns : List Pattern := destructuring :: patterns

variable {code : List Char} {name : String}

theorem isCapital_of_isAllCaps {name : List Char} (h : isAllCaps name = true) :
    ∀ c ∈ name, isCapital c = true := by
  cases name with
  | nil => cases h
  | cons first rest =>
      rw [isAllCaps, Bool.and_eq_true, List.all_eq_true] at h
      refine List.forall_mem_cons.2 ⟨?_, fun c hc => by rw [isCapital_eq]; exact h.2 c hc⟩
      rw [isCapital_eq, Bool.or_right_comm, h.1, Bool.true_or]

/-- A pattern finds the read wherever it stands between the same characters as here. -/
def FoundAgain (skipped read rest : List Char) : Prop :=
  ∃ p ∈ allPatterns, ∀ before after, before.getLast? = skipped.getLast? →
    (∀ c ∈ after.head?, c ∈ rest.head?) → p.occursIn (before ++ (read ++ after)) = true

theorem foundAgain_of_fits {f : Form} {p : Pattern} {c : Cursor}
    {lead gap named tail rest : List Char} (hp : p ∈ allPatterns) (hdescribes : f.Describes p)
    (h : f.Fits c lead gap named tail rest) (hne : lead ++ (gap ++ (named ++ tail)) ≠ []) :
    FoundAgain c.before.reverse (lead ++ (gap ++ (named ++ tail))) rest := by
  refine ⟨p, hp, fun before after hbefore hafter => ?_⟩
  have hfits : f.Fits ⟨before.reverse, (lead ++ (gap ++ (named ++ tail))) ++ after, before.length⟩
      lead gap named tail after := by
    refine h.congr ?_ ?_ hne hafter
    · simp only [List.append_assoc]
    · rw [List.head?_reverse, hbefore, List.getLast?_reverse]
  obtain ⟨m, hm⟩ := hdescribes.matchAt? hfits
  exact occursIn_of_matchAt? hm

theorem least_pos_of_mem_allPatterns : ∀ p ∈ allPatterns, 0 < p.ownWidth.least := by decide

/-- What a match reads opens with a mark, and it is found again wherever it stands between the same
characters. -/
theorem exists_opened_of_mem_allMatches {p : Pattern} {m : Match} (hp : p ∈ allPatterns)
    (hm : m ∈ p.allMatches code) : ∃ skipped front mark back rest named,
      code = skipped ++ ((front ++ mark :: back) ++ rest) ∧ m.group? 1 = some named ∧
        Opened front mark back named ∧ FoundAgain skipped (front ++ mark :: back) rest := by
  obtain ⟨f, hdescribes, hmarked⟩ : ∃ f : Form, f.Describes p ∧ f.Marked := by
    rcases List.mem_cons.1 hp with rfl | hsingle
    · exact ⟨.listing, Form.listing_describes, Form.listing_marked⟩
    · obtain ⟨f, hdescribes, -, hmarked⟩ := Form.exists_form p hsingle
      exact ⟨f, hdescribes, hmarked⟩
  have hmatch := (first_of_mem_allMatches (least_pos_of_mem_allPatterns p hp) hm).matchAt?
  obtain ⟨lead, gap, named, tail, rest, hfits, hgroup, -⟩ := hdescribes.fits hmatch
  obtain ⟨front, mark, back, hread, hopened⟩ := hmarked lead hfits.mem_leads gap hfits.mem_gaps named
    hfits.mem_names tail hfits.mem_tails
  have hagain := foundAgain_of_fits hp hdescribes hfits (by simp [hread])
  rw [hread] at hagain
  refine ⟨_, front, mark, back, rest, named, ?_, hgroup, hopened, hagain⟩
  rw [← hread, ← (within_allMatches p code m hm).start.chars, hfits.after]
  simp only [List.append_assoc]

theorem isCapital_of_mem_group {p : Pattern} {m : Match} {named : List Char} (hp : p ∈ patterns)
    (hm : m ∈ p.allMatches code) (hgroup : m.group? 1 = some named) :
    ∀ c ∈ named, isCapital c = true := by
  obtain ⟨f, hdescribes, hseparate, -⟩ := Form.exists_form p hp
  have hpos := least_pos_of_mem_allPatterns p (List.mem_cons_of_mem _ hp)
  obtain ⟨lead, gap, read, tail, rest, hfits, hread, -⟩ :=
    hdescribes.fits (first_of_mem_allMatches hpos hm).matchAt?
  obtain rfl : read = named := Option.some.inj (hread.symm.trans hgroup)
  exact (hseparate.name read hfits.mem_names).2

/-- A text reads a variable where a read opens with a mark, and the name consists of capitals. -/
theorem exists_opened_of_mem_namesIn (h : name ∈ namesIn code) :
    (∀ c ∈ name.toList, isCapital c = true) ∧ ∃ skipped front mark back rest named,
      code = skipped ++ ((front ++ mark :: back) ++ rest) ∧ Opened front mark back named ∧
        (mark = '$' → isAllCaps name.toList = true) ∧
          FoundAgain skipped (front ++ mark :: back) rest := by
  obtain ⟨read, hread, rfl⟩ := List.mem_map.1 h
  rw [String.toList_ofList]
  rcases List.mem_append.1 hread with hsingle | hlisted
  · obtain ⟨p, hp, hmem⟩ := List.mem_flatMap.1 hsingle
    obtain ⟨m, hm, rfl⟩ := List.mem_map.1 hmem
    obtain ⟨skipped, front, mark, back, rest, named, hcode, hgroup, hopened, hagain⟩ :=
      exists_opened_of_mem_allMatches (List.mem_cons_of_mem _ hp) hm
    rw [hgroup, Option.getD_some]
    exact ⟨isCapital_of_mem_group hp hm hgroup, skipped, front, mark, back, rest, named, hcode,
      hopened, hopened.expands, hagain⟩
  · obtain ⟨m, hm, hname⟩ := List.mem_flatMap.1 hlisted
    have hcaps : isAllCaps read = true := (List.mem_filter.1 hname).2
    obtain ⟨skipped, front, mark, back, rest, named, hcode, -, hopened, hagain⟩ :=
      exists_opened_of_mem_allMatches List.mem_cons_self hm
    exact ⟨isCapital_of_isAllCaps hcaps, skipped, front, mark, back, rest, named, hcode, hopened,
      fun _ => hcaps, hagain⟩

end EnvAudit.Usage
