import EnvAudit.Source
import Mathlib.Data.List.Basic

/-!
# Code is part of the text

Removing what is not code leaves a sublist of the text: no character is made up or moved.  A text
without comment marks stays as it is.
-/

namespace EnvAudit.Source

theorem dropBlockComments_sublist (inside : Bool) (text : List Char) :
    (dropBlockComments inside text).Sublist text := by
  fun_induction dropBlockComments inside text with
  | case1 => exact List.Sublist.refl []
  | case2 rest ih => exact (ih.cons '/').cons '*'
  | case3 c rest _ ih => exact ih.cons c
  | case4 rest _ ih => exact (ih.cons '*').cons '/'
  | case5 rest _ ih => exact ih.cons_cons '/'
  | case6 c rest _ ih => exact ih.cons_cons c

theorem dropLineComments_sublist (state : LineState) (text : List Char) :
    (dropLineComments state text).Sublist text := by
  fun_induction dropLineComments state text with
  | case1 => exact List.Sublist.refl []
  | case2 rest ih => exact ih.cons_cons '\n'
  | case3 c rest _ ih => exact ih.cons c
  | case4 rest ih => exact ih.cons_cons '/'
  | case5 previous rest _ ih => exact ih.cons '/'
  | case6 previous c rest _ ih => exact ih.cons_cons c

theorem dropSections_sublist (opening closing : List Char) (skip : Nat) (inside : Bool)
    (text : List Char) : (dropSections opening closing skip inside text).Sublist text := by
  fun_induction dropSections opening closing skip inside text with
  | case1 => exact List.Sublist.refl []
  | case2 skip inside c rest ih => exact ih.cons c
  | case3 c rest _ ih => exact ih.cons c
  | case4 c rest _ ih => exact ih.cons c
  | case5 c rest _ ih => exact ih.cons c
  | case6 c rest _ ih => exact ih.cons_cons c

theorem dropMarkup_sublist (text : List Char) : (dropMarkup text).Sublist text :=
  (dropSections_sublist _ _ 0 false _).trans (dropSections_sublist _ _ 0 false text)

theorem code_sublist (text : List Char) (comments markup : Bool) :
    (code text comments markup).Sublist text := by
  have hcomments : (if comments then dropComments text else text).Sublist text := by
    cases comments with
    | false => exact List.Sublist.refl text
    | true => exact (dropLineComments_sublist _ _).trans (dropBlockComments_sublist false text)
  rw [code]
  cases markup with
  | false => exact hcomments
  | true => exact (dropMarkup_sublist _).trans hcomments

/-! ## Text without comments -/

theorem not_infix_of_cons {mark text : List Char} {c : Char} (h : ¬ mark <:+: c :: text) :
    ¬ mark <:+: text :=
  fun hpart => h (hpart.trans (List.suffix_cons c text).isInfix)

theorem not_infix_append {first : Char} {mark front text : List Char}
    (h : ¬ first :: mark <:+: text) (hfront : first ∉ front) :
    ¬ first :: mark <:+: front ++ text := by
  induction front with
  | nil => exact h
  | cons c front ih =>
      rw [List.mem_cons, not_or] at hfront
      rw [List.cons_append, List.infix_cons_iff, not_or]
      exact ⟨fun hbegins => hfront.1 (List.cons_prefix_cons.1 hbegins).1, ih hfront.2⟩

/-- A mark of two characters is not made up by adding a text that holds neither of them. -/
theorem not_pair_infix_append {first second : Char} {text rest : List Char}
    (h : ¬ [first, second] <:+: text) (hfirst : first ∉ rest) (hsecond : second ∉ rest) :
    ¬ [first, second] <:+: text ++ rest := by
  induction text with
  | nil => exact fun hpart => hfirst (hpart.subset List.mem_cons_self)
  | cons c text ih =>
      rw [List.cons_append, List.infix_cons_iff, not_or]
      refine ⟨fun hbegins => ?_, ih (not_infix_of_cons h)⟩
      obtain ⟨rfl, hnext⟩ := List.cons_prefix_cons.1 hbegins
      cases text with
      | nil => exact hsecond (hnext.subset List.mem_cons_self)
      | cons d text =>
          obtain ⟨rfl, -⟩ := List.cons_prefix_cons.1 hnext
          exact h (List.prefix_append [first, second] text).isInfix

theorem dropBlockComments_eq_self {text : List Char} (h : ¬ ['/', '*'] <:+: text) :
    dropBlockComments false text = text := by
  generalize hinside : false = inside
  fun_induction dropBlockComments inside text with
  | case1 => rfl
  | case2 | case3 => cases hinside
  | case4 rest _ _ | case5 rest _ _ => exact absurd (List.prefix_append ['/', '*'] rest).isInfix h
  | case6 c rest _ ih => rw [ih (not_infix_of_cons h) rfl]

theorem dropLineComments_eq_self {previous : Option Char} {text : List Char}
    (h : ¬ ['/', '/'] <:+: text) : dropLineComments (.code previous) text = text := by
  generalize hstate : LineState.code previous = state
  fun_induction dropLineComments state text generalizing previous with
  | case1 => rfl
  | case2 | case3 => cases hstate
  | case4 rest _ | case5 _ rest _ _ => exact absurd (List.prefix_append ['/', '/'] rest).isInfix h
  | case6 _ c rest _ ih => rw [ih (not_infix_of_cons h) rfl]

theorem dropComments_eq_self {text : List Char} (hblock : ¬ ['/', '*'] <:+: text)
    (hline : ¬ ['/', '/'] <:+: text) : dropComments text = text := by
  rw [dropComments, dropBlockComments_eq_self hblock, dropLineComments_eq_self hline]

end EnvAudit.Source
