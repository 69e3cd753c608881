import EnvAudit.Literal
import EnvAudit.Proofs.Text.Split
import Mathlib.Algebra.Ring.Parity
import Mathlib.Data.List.DropRight

/-!
# Which expressions are literals

The inner text of a literal is a sequence of escapes and of plain characters, or so the languages
read it: each quote in it follows an odd number of backslashes, and an even number stands at its end.
An expression is taken for a literal as soon as each inner quote follows a backslash.  Every literal
is therefore found, and what is found in error is told by the backslashes in front of its quotes.
-/

namespace EnvAudit.Literal

/-- A sequence of escapes, which are a backslash and any character, and of characters that are neither
a backslash nor the quote. -/
inductive Items (quote : Char) : List Char → Prop
  | nil : Items quote []
  | escape (c : Char) {rest : List Char} : Items quote rest → Items quote ('\\' :: c :: rest)
  | plain {c : Char} {rest : List Char} :
    c ≠ '\\' → c ≠ quote → Items quote rest → Items quote (c :: rest)

/-- The expression is a single literal with the given inner text, blank characters around it aside. -/
def IsLiteral (expression inner : String) : Prop :=
  ∃ quote ∈ quotes, Text.trim expression.toList = quote :: (inner.toList ++ [quote]) ∧
    Items quote inner.toList ∧ (quote = '`' → ¬ ['$', '{'] <:+: inner.toList)

/-- How many backslashes a text ends with. -/
def slashRun (text : List Char) : Nat := (text.rtakeWhile (· == '\\')).length

/-- What holds of the number of backslashes in front of each quote. -/
def QuoteRuns (quote : Char) (P : Nat → Prop) (text : List Char) : Prop :=
  ∀ front rest, text = front ++ quote :: rest → P (slashRun front)

variable {quote : Char} {text : List Char}

/-! ## Runs of backslashes -/

theorem slashRun_le (text : List Char) : slashRun text ≤ text.length :=
  List.rtakeWhile_suffix (p := (· == '\\')) (l := text) |>.length_le

theorem slashRun_cons (c : Char) (text : List Char) :
    slashRun (c :: text) =
      if slashRun text = text.length ∧ c = '\\' then text.length + 1 else slashRun text := by
  simp only [slashRun, List.rtakeWhile, List.reverse_cons, List.takeWhile_append,
    List.length_reverse]
  by_cases hall : (text.reverse.takeWhile (· == '\\')).length = text.length
  · by_cases hc : c = '\\' <;> simp [hall, hc]
  · simp [hall]

theorem slashRun_cons_of_ne {c : Char} (h : c ≠ '\\') (text : List Char) :
    slashRun (c :: text) = slashRun text := by
  rw [slashRun_cons, if_neg fun hboth => h hboth.2]

/-- An escape in front of a text does not change whether its last run is even. -/
theorem even_slashRun_escape (c : Char) (text : List Char) :
    Even (slashRun ('\\' :: c :: text)) ↔ Even (slashRun text) := by
  have hle := slashRun_le text
  by_cases hall : slashRun text = text.length ∧ c = '\\'
  · have hnext : slashRun (c :: text) = text.length + 1 := by rw [slashRun_cons, if_pos hall]
    rw [slashRun_cons, if_pos ⟨hnext, rfl⟩, hall.1, List.length_cons, Nat.even_add, Nat.even_add]
    simp
  · have hnext : slashRun (c :: text) = slashRun text := by rw [slashRun_cons, if_neg hall]
    rw [slashRun_cons, if_neg, hnext]
    rw [hnext, List.length_cons]
    omega

theorem slashRun_cons_pos_iff (c : Char) (text : List Char) :
    0 < slashRun (c :: text) ↔ (text = [] ∧ c = '\\') ∨ 0 < slashRun text := by
  rw [slashRun_cons]
  split
  · rename_i hboth
    cases text with
    | nil => simp [hboth.2]
    | cons d text => simp [hboth.1]
  · rename_i hnot
    rw [or_iff_right]
    rintro ⟨rfl, rfl⟩
    exact hnot ⟨rfl, rfl⟩

theorem forall_cons_eq_append_iff {c : Char} {P : List Char → Prop} :
    (∀ front rest, c :: text = front ++ quote :: rest → P front) ↔
      (c = quote → P []) ∧ ∀ front rest, text = front ++ quote :: rest → P (c :: front) := by
  constructor
  · intro h
    exact ⟨fun heq => h [] text (by rw [heq]; rfl),
      fun front rest heq => h (c :: front) rest (by rw [heq]; rfl)⟩
  · rintro ⟨hfirst, hlater⟩ front rest heq
    cases front with
    | nil => exact hfirst (List.cons.inj heq).1
    | cons d front =>
        obtain ⟨rfl, htext⟩ := List.cons.inj heq
        exact hlater front rest htext

/-! ## What counts as a literal -/

theorem quotesEscaped_eq_true_iff (escaped : Bool) :
    quotesEscaped quote escaped text = true ↔
      ∀ front rest, text = front ++ quote :: rest →
        (front = [] ∧ escaped = true) ∨ 0 < slashRun front := by
  induction text generalizing escaped with
  | nil => simp [quotesEscaped]
  | cons c text ih =>
      have hlast : slashRun [] = 0 := rfl
      rw [quotesEscaped, Bool.and_eq_true, ih, Bool.or_eq_true, bne_iff_ne,
        forall_cons_eq_append_iff]
      refine and_congr ?_ ?_
      · simp [hlast, imp_iff_not_or]
      · simp only [slashRun_cons_pos_iff, beq_iff_eq, List.cons_ne_nil, false_and, false_or]

/-- Within a text every quote follows a backslash. -/
theorem quotesEscaped_iff_quoteRuns :
    quotesEscaped quote false text = true ↔ QuoteRuns quote (0 < ·) text := by
  simp only [quotesEscaped_eq_true_iff, Bool.false_eq_true, and_false, false_or]
  rfl

theorem unsnoc?_concat (front : List Char) (last : Char) :
    unsnoc? (front ++ [last]) = some (front, last) := by
  induction front with
  | nil => rfl
  | cons c front ih =>
      obtain ⟨next, more, hnext⟩ := List.exists_cons_of_ne_nil (show front ++ [last] ≠ [] by simp)
      rw [List.cons_append, hnext, unsnoc?, ← hnext, ih]
      · rfl
      · simp

theorem inner?_eq_some_iff {expression body : List Char} :
    inner? expression = some body ↔ ∃ quote ∈ quotes, expression = quote :: (body ++ [quote]) ∧
      QuoteRuns quote (0 < ·) body ∧ (quote = '`' → ¬ ['$', '{'] <:+: body) := by
  cases expression with
  | nil => simp [inner?]
  | cons first rest =>
      rcases List.eq_nil_or_concat' rest with rfl | ⟨front, last, rfl⟩
      · simp [inner?, unsnoc?]
      · rw [inner?, unsnoc?_concat]
        dsimp only
        rw [Option.ite_none_right_eq_some, Option.some.injEq, Bool.and_eq_true, Bool.and_eq_true,
          Bool.and_eq_true, Bool.not_eq_true', List.contains_iff_mem, beq_iff_eq,
          quotesEscaped_iff_quoteRuns, Bool.and_eq_false_imp, beq_iff_eq, Bool.eq_false_iff,
          ne_eq, Text.occurs_iff_infix]
        constructor
        · rintro ⟨⟨⟨⟨hquote, rfl⟩, hruns⟩, hplain⟩, rfl⟩
          exact ⟨last, hquote, rfl, hruns, hplain⟩
        · rintro ⟨quote, hquote, heq, hruns, hplain⟩
          obtain ⟨rfl, heq⟩ := List.cons.inj heq
          obtain ⟨rfl, hlast⟩ := List.append_inj' heq rfl
          exact ⟨⟨⟨⟨hquote, List.singleton_inj.1 hlast⟩, hruns⟩, hplain⟩, rfl⟩

theorem text?_eq_some_iff_quoteRuns {expression inner : String} :
    text? expression = some inner ↔ ∃ quote ∈ quotes,
      Text.trim expression.toList = quote :: (inner.toList ++ [quote]) ∧
        QuoteRuns quote (0 < ·) inner.toList ∧ (quote = '`' → ¬ ['$', '{'] <:+: inner.toList) := by
  rw [text?, Option.map_eq_some_iff, ← inner?_eq_some_iff]
  constructor
  · rintro ⟨body, hbody, rfl⟩
    rwa [String.toList_ofList]
  · intro hbody
    exact ⟨inner.toList, hbody, String.ofList_toList⟩

/-! ## Escapes and runs -/

theorem quoteRuns_odd_escape (hquote : quote ≠ '\\') (c : Char) :
    QuoteRuns quote Odd ('\\' :: c :: text) ↔ QuoteRuns quote Odd text := by
  have hone : Odd (slashRun ['\\']) := odd_one
  have hparity (front : List Char) :
      Odd (slashRun ('\\' :: c :: front)) ↔ Odd (slashRun front) := by
    rw [← Nat.not_even_iff_odd, ← Nat.not_even_iff_odd, even_slashRun_escape]
  simp only [QuoteRuns, forall_cons_eq_append_iff, hparity, hone, Ne.symm hquote,
    false_implies, implies_true, true_and]

theorem quoteRuns_odd_plain {c : Char} (hslash : c ≠ '\\') :
    QuoteRuns quote Odd (c :: text) ↔ c ≠ quote ∧ QuoteRuns quote Odd text := by
  have hzero : ¬ Odd (slashRun []) := Nat.not_odd_zero
  simp only [QuoteRuns, forall_cons_eq_append_iff, slashRun_cons_of_ne hslash, hzero, ne_eq,
    imp_false]

theorem items_of_quoteRuns (hquote : quote ≠ '\\') :
    ∀ text, QuoteRuns quote Odd text → Even (slashRun text) → Items quote text
  | [], _, _ => .nil
  | [c], hruns, heven => by
      have hslash : c ≠ '\\' := by
        rintro rfl
        exact absurd heven (by decide)
      exact .plain hslash ((quoteRuns_odd_plain hslash).1 hruns).1 .nil
  | c :: d :: rest, hruns, heven => by
      by_cases hslash : c = '\\'
      · subst hslash
        exact .escape d (items_of_quoteRuns hquote rest ((quoteRuns_odd_escape hquote d).1 hruns)
          ((even_slashRun_escape d rest).1 heven))
      · obtain ⟨hne, hruns⟩ := (quoteRuns_odd_plain hslash).1 hruns
        rw [slashRun_cons_of_ne hslash] at heven
        exact .plain hslash hne (items_of_quoteRuns hquote (d :: rest) hruns heven)

/-- Escapes take the backslashes in pairs from the left, so that a quote is escaped by an odd run of
them, and the last item is complete behind an even one. -/
theorem items_iff_quoteRuns (hquote : quote ≠ '\\') :
    Items quote text ↔ QuoteRuns quote Odd text ∧ Even (slashRun text) := by
  constructor
  · intro h
    induction h with
    | nil => exact ⟨by simp [QuoteRuns], Even.zero⟩
    | escape c _ ih =>
        exact ⟨(quoteRuns_odd_escape hquote c).2 ih.1, (even_slashRun_escape c _).2 ih.2⟩
    | plain hslash hne _ ih =>
        rw [quoteRuns_odd_plain hslash, slashRun_cons_of_ne hslash]
        exact ⟨⟨hne, ih.1⟩, ih.2⟩
  · exact fun h => items_of_quoteRuns hquote text h.1 h.2

theorem ne_slash_of_mem_quotes (h : quote ∈ quotes) : quote ≠ '\\' := by
  rintro rfl
  exact absurd h (by decide)

/-- An expression is taken for a literal exactly if it stands in quotes and each inner quote follows a
backslash.  All literals are among these expressions, and they are the ones where inner quotes follow
an odd number of backslashes and the last quote an even number. -/
theorem text?_eq_some_iff (expression inner : String) :
    (text? expression = some inner ↔ ∃ quote ∈ quotes,
      Text.trim expression.toList = quote :: (inner.toList ++ [quote]) ∧
        QuoteRuns quote (0 < ·) inner.toList ∧
        (quote = '`' → ¬ ['$', '{'] <:+: inner.toList)) ∧
      (IsLiteral expression inner ↔ text? expression = some inner ∧
        ∀ quote, (Text.trim expression.toList).head? = some quote →
          QuoteRuns quote Odd inner.toList ∧ Even (slashRun inner.toList)) := by
  refine ⟨text?_eq_some_iff_quoteRuns, ?_⟩
  rw [text?_eq_some_iff_quoteRuns]
  constructor
  · rintro ⟨quote, hquote, htrim, hitems, hplain⟩
    have hruns := (items_iff_quoteRuns (ne_slash_of_mem_quotes hquote)).1 hitems
    have hfollow : QuoteRuns quote (0 < ·) inner.toList := by
      intro front rest heq
      obtain ⟨half, hhalf⟩ := hruns.1 front rest heq
      rw [hhalf]
      exact Nat.succ_pos _
    refine ⟨⟨quote, hquote, htrim, hfollow, hplain⟩, fun first hfirst => ?_⟩
    rw [htrim] at hfirst
    cases hfirst
    exact hruns
  · rintro ⟨⟨quote, hquote, htrim, -, hplain⟩, hruns⟩
    have hitems := (items_iff_quoteRuns (ne_slash_of_mem_quotes hquote)).2
      (hruns quote (by rw [htrim]; rfl))
    exact ⟨quote, hquote, htrim, hitems, hplain⟩

/-- A quote behind two backslashes is taken for an escaped one, and a last quote behind one backslash
for the end of the literal. -/
theorem text?_unpaired :
    (text? "\"a\\\\\"b\"" = some "a\\\\\"b" ∧ ¬ IsLiteral "\"a\\\\\"b\"" "a\\\\\"b") ∧
      text? "\"a\\\"" = some "a\\" ∧ ¬ IsLiteral "\"a\\\"" "a\\" := by
  refine ⟨⟨by decide, ?_⟩, by decide, ?_⟩
  · rintro ⟨quote, hquote, htrim, hitems, -⟩
    obtain ⟨rfl, -⟩ := List.cons.inj htrim
    have hruns := (items_iff_quoteRuns (ne_slash_of_mem_quotes hquote)).1 hitems
    have hodd : Odd 2 := hruns.1 ['a', '\\', '\\'] ['b'] rfl
    exact absurd hodd (by decide)
  · rintro ⟨quote, hquote, htrim, hitems, -⟩
    obtain ⟨rfl, -⟩ := List.cons.inj htrim
    have hruns := (items_iff_quoteRuns (ne_slash_of_mem_quotes hquote)).1 hitems
    have heven : Even 1 := hruns.2
    exact absurd heven (by decide)

end EnvAudit.Literal
