import EnvAudit.Proofs.Pattern.Fenced
import EnvAudit.Proofs.Usage.Named
import EnvAudit.Proofs.Usage.Silent

/-!
# Texts that read no variable

No read goes across a comma, a colon, an equals sign or a closing brace, and none begins or ends with a
blank.  So a text reads nothing if the pieces between these marks read nothing, however they are laid
out.
-/

namespace EnvAudit

namespace Text

variable {front more skipped next : List Char}

/-- What begins with a character that the first of two texts does not hold, begins in the second. -/
theorem exists_append_of_head (h : front ++ more = skipped ++ next)
    (hhead : ∃ c ∈ next.head?, c ∉ front) :
    ∃ inside, skipped = front ++ inside ∧ more = inside ++ next := by
  rcases List.append_eq_append_iff.1 h with ⟨inside, hskipped, hmore⟩ | ⟨begun, hfront, hnext⟩
  · exact ⟨inside, hskipped, hmore⟩
  · cases begun with
    | nil => exact ⟨[], by rw [hfront, List.append_nil, List.append_nil], hnext.symm⟩
    | cons first begun =>
        obtain ⟨c, hc, hnot⟩ := hhead
        rw [hnext] at hc
        obtain rfl : first = c := Option.some.inj hc
        exact absurd (by simp [hfront]) hnot

end Text

namespace Usage

open Pattern

/-- No pattern that reads one variable occurs in the text. -/
def Quiet (text : List Char) : Prop := ∀ p ∈ patterns, p.occursIn text = false

instance (text : List Char) : Decidable (Quiet text) :=
  inferInstanceAs (Decidable (∀ p ∈ patterns, p.occursIn text = false))

/-- The marks between the pieces of a declaration that takes out variables. -/
def separators : List Char := [',', ':', '=', '\x7d']

variable {p : Pattern} {k : CharClass} {text front back before after more : List Char} {d : Char}

theorem fencedBy_separators : ∀ p ∈ patterns, p.fencedBy separators = true := by decide

/-- The opening brace stands in expansions only. -/
theorem fencedBy_brace : ∀ p ∈ patterns, p = expansion ∨ p.fencedBy ['\x7b'] = true := by
  simp only [patterns, List.forall_mem_cons]
  exact ⟨.inr rfl, .inr rfl, .inr rfl, .inr rfl, .inr rfl, .inr rfl, .inr rfl, .inr rfl, .inr rfl,
    .inr rfl, .inr rfl, .inl rfl, by simp⟩

/-- No read begins with a blank. -/
theorem startsIn_visible : ∀ p ∈ patterns, StartsIn CharClass.blank.complement p := by
  simp only [patterns, List.forall_mem_cons]
  refine ⟨?processDot, ?processBracket, ?importMeta, ?denoGet, ?environBracket, ?environGet, ?getenv,
    ?envBracket, ?envFetch, ?osGetenv, ?getVariable, ?expansion, by simp⟩
  case processDot | importMeta | expansion => exact .seq (.seq (startsIn_text rfl rfl))
  case processBracket | environBracket => exact .seq (.seq (.seq (startsIn_text rfl rfl)))
  case denoGet | environGet | getVariable => exact .seq (startsIn_text rfl rfl)
  case osGetenv => exact .seq (.seq (.seq (startsIn_text rfl rfl)))
  case envBracket => exact .seq (.seq (.seq ((startsIn_text rfl rfl).behindEdge _)))
  case getenv | envFetch => exact .seq ((startsIn_text rfl rfl).behindEdge _)

theorem startsIn_expansion : StartsIn (.ofChar '$') expansion := .seq (.seq (startsIn_text rfl rfl))

theorem exists_matchAt?_of_occursIn (h : p.occursIn text = true) :
    ∃ skipped next m, text = skipped ++ next ∧
      p.matchAt? ⟨skipped.reverse, next, skipped.length⟩ = some m := by
  obtain ⟨m, hfound⟩ := Option.isSome_iff_exists.1 h
  obtain ⟨skipped, next, htext, hm⟩ := Form.exists_of_findFrom? hfound
  rw [List.append_nil, Nat.zero_add] at hm
  exact ⟨skipped, next, m, htext, hm⟩

/-- Behind characters with which it cannot begin and that end no word, a read is a read in the rest of
the text. -/
theorem occursIn_behind (hp : p ∈ patterns) (hstarts : StartsIn k p)
    (hbefore : ∀ c ∈ before, k.admits c = false) (hword : ∀ c ∈ before.getLast?, Text.isWord c = false)
    (h : p.occursIn (before ++ more) = true) : p.occursIn more = true := by
  obtain ⟨skipped, next, m, htext, hm⟩ := exists_matchAt?_of_occursIn h
  obtain ⟨f, hdescribes, -, hmarked⟩ := Form.exists_form p hp
  obtain ⟨lead, gap, name, tail, rest, hfits, -, -⟩ := hdescribes.fits hm
  have hhead : ∃ c ∈ next.head?, c ∉ before := by
    rw [matchAt?_eq, Option.map_eq_some_iff] at hm
    obtain ⟨r', hfirst, -⟩ := hm
    obtain ⟨c, hc, hadmits⟩ := hstarts _ r' (List.mem_of_head? hfirst)
    exact ⟨c, hc, fun hmem => by simp [hbefore c hmem] at hadmits⟩
  obtain ⟨inside, rfl, rfl⟩ := Text.exists_append_of_head htext hhead
  have hmoved : f.Fits ⟨inside.reverse, next, inside.length⟩ lead gap name tail rest := by
    refine hfits.congr_word hfits.after ?_ ?_ fun c hc => hc
    · rcases List.eq_nil_or_concat' inside with rfl | ⟨less, last, rfl⟩
      · simp only [List.append_nil, List.reverse_nil, List.head?_nil, List.head?_reverse]
        cases hlast : before.getLast? with
        | none => rfl
        | some c => exact (hword c hlast).symm
      · simp
    · obtain ⟨front, mark, back, hread, -⟩ := hmarked lead hfits.mem_leads gap hfits.mem_gaps name
        hfits.mem_names tail hfits.mem_tails
      simp [hread]
  obtain ⟨m', hm'⟩ := hdescribes.matchAt? hmoved
  exact occursIn_of_matchAt? hm'

/-- In a text that ends with blanks and semicolons, a read is a read in what stands in front of them. -/
theorem occursIn_inFront (hp : p ∈ patterns) (hafter : ∀ c ∈ after, Text.isBlank c = true ∨ c = ';')
    (h : p.occursIn (text ++ after) = true) : p.occursIn text = true := by
  obtain ⟨skipped, next, m, htext, hm⟩ := exists_matchAt?_of_occursIn h
  obtain ⟨f, hdescribes, -, hmarked⟩ := Form.exists_form p hp
  obtain ⟨lead, gap, name, tail, rest, hfits, -, -⟩ := hdescribes.fits hm
  obtain ⟨front, mark, back, hread, hopened⟩ := hmarked lead hfits.mem_leads gap hfits.mem_gaps name
    hfits.mem_names tail hfits.mem_tails
  have hnext : next = (front ++ mark :: back) ++ rest := by
    rw [← hread]
    exact hfits.eq_append.trans (by simp)
  have hlast : ∀ c ∈ (skipped ++ (front ++ mark :: back)).getLast?, c ∉ after := by
    rw [← List.append_assoc, List.getLast?_append_of_ne_nil _ (List.cons_ne_nil mark back)]
    exact hopened.last_notMem hafter
  rw [hnext, ← List.append_assoc] at htext
  obtain ⟨behind, rfl, rfl⟩ := Text.exists_append_of_last htext hlast
  have hcut : f.Fits ⟨skipped.reverse, (front ++ mark :: back) ++ behind, skipped.length⟩ lead gap name
      tail behind :=
    hfits.congr_word (by simp [← hread]) rfl (by simp [hread]) (mem_head?_of_eq_append rfl)
  obtain ⟨m', hm'⟩ := hdescribes.matchAt? hcut
  rw [List.append_assoc]
  exact occursIn_of_matchAt? hm'

/-! ## Joining quiet texts -/

/-- A text without the marks that reads open with is quiet. -/
theorem quiet_of_plain (h : ∀ mark ∈ openings, mark ∉ text) : Quiet text := by
  intro p hp
  rw [← allMatches_eq_nil_iff (least_pos_of_mem p hp), List.eq_nil_iff_forall_not_mem]
  intro m hm
  obtain ⟨_, _, mark, _, _, _, rfl, -, hopened, -⟩ :=
    exists_opened_of_mem_allMatches (List.mem_cons_of_mem _ hp) hm
  exact h mark hopened.mem_openings (by simp)

theorem Quiet.append_cons (hfront : Quiet front) (hback : Quiet back) (hd : d ∈ separators) :
    Quiet (front ++ d :: back) := fun p hp =>
  (occursIn_append_cons (least_pos_of_mem p hp) (fencedBy_separators p hp) hd front back).2
    ⟨hfront p hp, hback p hp⟩

/-- A brace expands nothing without a dollar sign in front. -/
theorem Quiet.append_brace (hfront : Quiet front) (hback : Quiet back) (hdollar : '$' ∉ front) :
    Quiet (front ++ '\x7b' :: back) := by
  intro p hp
  rcases fencedBy_brace p hp with rfl | hfenced
  · refine eq_false_of_ne_true fun hoccurs => ?_
    have hnone : ∀ c ∈ front ++ ['\x7b'], (CharClass.ofChar '$').admits c = false := by
      intro c hc
      rw [CharClass.admits_ofChar, beq_eq_false_iff_ne]
      rintro rfl
      simp [hdollar] at hc
    have hbehind : expansion.occursIn back = true :=
      occursIn_behind hp startsIn_expansion hnone (by simp; decide) (by simpa using hoccurs)
    rw [hback expansion hp] at hbehind
    cases hbehind
  · exact (occursIn_append_cons (least_pos_of_mem p hp) hfenced (List.mem_singleton_self _) front
      back).2 ⟨hfront p hp, hback p hp⟩

/-- Blanks around a text read nothing. -/
theorem Quiet.padded (h : Quiet text) (hbefore : ∀ c ∈ before, Text.isBlank c = true)
    (hafter : ∀ c ∈ after, Text.isBlank c = true ∨ c = ';') : Quiet (before ++ (text ++ after)) := by
  intro p hp
  refine eq_false_of_ne_true fun hoccurs => ?_
  have hblank : ∀ c ∈ before, CharClass.blank.complement.admits c = false := fun c hc => by
    rw [CharClass.admits_complement, CharClass.admits_blank, hbefore c hc]
    rfl
  have hfound := occursIn_inFront hp hafter (occursIn_behind hp (startsIn_visible p hp) hblank
    (fun c hc => Text.isWord_of_isBlank (hbefore c (List.mem_of_mem_getLast? hc))) hoccurs)
  rw [h p hp] at hfound
  cases hfound

end Usage

end EnvAudit
