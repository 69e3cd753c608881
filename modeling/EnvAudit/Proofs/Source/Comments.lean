import EnvAudit.Proofs.Source
import EnvAudit.Proofs.Text.Split
import Mathlib.Data.List.TakeWhile

/-!
# Comments read from left to right

A reader of comments goes through a text once.  Outside comments, two slashes open a comment up to the
end of the line, and a slash and an asterisk open one up to the next closing mark, if there is one.
Removing the block comments first and the line comments afterwards does the same, unless a line comment
holds an opening mark that is closed behind it: the first pass then removes what stands between.
-/

namespace EnvAudit.Source

/-- What a reader of comments finds. -/
inductive Piece
  /-- A character outside all comments. -/
  | code (c : Char)
  /-- A line comment with what follows its two slashes, the line end aside. -/
  | line (body : List Char)
  /-- A block comment with what stands between its marks. -/
  | block (body : List Char)
deriving Repr, DecidableEq

def Piece.text : Piece → List Char
  | .code c => [c]
  | .line body => '/' :: '/' :: body
  | .block body => '/' :: '*' :: (body ++ ['*', '/'])

def Piece.code? : Piece → Option Char
  | .code c => some c
  | .line _ | .block _ => none

def textOf (pieces : List Piece) : List Char := pieces.flatMap Piece.text

/-- Cuts a text at the first closing mark of a block comment. -/
def cutAtClosing? : List Char → Option (List Char × List Char)
  | [] => none
  | '*' :: '/' :: rest => some ([], rest)
  | c :: rest => (cutAtClosing? rest).map fun (body, after) => (c :: body, after)

theorem eq_of_cutAtClosing? {text body after : List Char}
    (h : cutAtClosing? text = some (body, after)) : text = body ++ '*' :: '/' :: after := by
  fun_induction cutAtClosing? text generalizing body with
  | case1 => cases h
  | case2 rest => cases h; rfl
  | case3 c rest _ ih =>
      obtain ⟨⟨inner, more⟩, hcut, heq⟩ := Option.map_eq_some_iff.1 h
      cases heq
      rw [ih hcut, List.cons_append]

/-- The pieces of a text, in order. -/
def piecesOf : List Char → List Piece
  | [] => []
  | '/' :: '/' :: rest =>
    .line (rest.takeWhile (· != '\n')) :: piecesOf (rest.dropWhile (· != '\n'))
  | '/' :: '*' :: rest =>
    match _hcut : cutAtClosing? rest with
    | some (body, after) => .block body :: piecesOf after
    | none => .code '/' :: piecesOf ('*' :: rest)
  | c :: rest => .code c :: piecesOf rest
termination_by text => text.length
decreasing_by
  · have := (List.dropWhile_suffix (· != '\n') (l := rest)).length_le
    simp only [List.length_cons]
    omega
  · have := congrArg List.length (eq_of_cutAtClosing? _hcut)
    simp only [List.length_append, List.length_cons] at this ⊢
    omega
  · simp
  · simp

/-- A text without its comments. -/
def withoutComments (text : List Char) : List Char := (piecesOf text).filterMap Piece.code?

/-- A reader who looks for block comments only gets through the text: every opening mark that he meets
is closed in the text, or nowhere in it and in what comes after it. -/
inductive Passable (after : List Char) : List Char → Prop
  | nil : Passable after []
  | block {text body rest : List Char} (hcut : cutAtClosing? text = some (body, rest))
      (hrest : Passable after rest) : Passable after ('/' :: '*' :: text)
  | unclosed {text : List Char} (hopen : ¬ ['*', '/'] <:+: text ++ after)
      (hrest : Passable after ('*' :: text)) : Passable after ('/' :: '*' :: text)
  | char {c : Char} {text : List Char} (hchar : c = '/' → text.head? ≠ some '*')
      (hrest : Passable after text) : Passable after (c :: text)

/-- A line comment that does not mislead a reader who looks for block comments only. -/
structure Contained (body after : List Char) : Prop where
  passable : Passable after body
  /-- The second slash of the comment does not open a block comment. -/
  begins : ∀ rest, body = '*' :: rest → ¬ ['*', '/'] <:+: rest ++ after

/-- No line comment holds a block comment that ends behind it or begins with its second slash. -/
def LinesContained (pieces : List Piece) : Prop :=
  ∀ before body later, pieces = before ++ .line body :: later → Contained body (textOf later)

/-! ## The pieces of a text -/

theorem textOf_piecesOf (text : List Char) : textOf (piecesOf text) = text := by
  fun_induction piecesOf text with
  | case1 => rfl
  | case2 rest ih =>
      rw [textOf, List.flatMap_cons, ← textOf, ih, Piece.text, List.cons_append, List.cons_append,
        List.takeWhile_append_dropWhile]
  | case3 rest body after hcut ih =>
      rw [textOf, List.flatMap_cons, ← textOf, ih, Piece.text, eq_of_cutAtClosing? hcut]
      simp only [List.cons_append, List.append_assoc, List.nil_append]
  | case4 rest _ ih | case5 c rest _ _ ih =>
      rw [textOf, List.flatMap_cons, ← textOf, ih, Piece.text, List.singleton_append]

theorem LinesContained.tail {piece : Piece} {pieces : List Piece}
    (h : LinesContained (piece :: pieces)) : LinesContained pieces :=
  fun before body later heq => h (piece :: before) body later (by rw [heq]; rfl)

/-! ## The pass for block comments -/

variable {text rest body after : List Char}

theorem dropBlockComments_code_cons {c : Char} (h : c = '/' → rest.head? ≠ some '*') :
    dropBlockComments false (c :: rest) = c :: dropBlockComments false rest := by
  rw [dropBlockComments]
  rintro more rfl rfl
  exact h rfl rfl

/-- A slash stays unless it opens a comment that is closed. -/
theorem dropBlockComments_slash (h : ∀ more, rest = '*' :: more → ¬ ['*', '/'] <:+: more) :
    dropBlockComments false ('/' :: rest) = '/' :: dropBlockComments false rest := by
  by_cases hstar : rest.head? = some '*'
  · obtain ⟨more, rfl⟩ := List.head?_eq_some_iff.1 hstar
    rw [dropBlockComments, if_neg fun hoccurs => h more rfl (Text.occurs_iff_infix.1 hoccurs)]
  · exact dropBlockComments_code_cons fun _ => hstar

theorem head?_dropBlockComments (h : text.head? ≠ some '/') :
    (dropBlockComments false text).head? = text.head? := by
  cases text with
  | nil => rfl
  | cons c rest =>
      rw [dropBlockComments_code_cons]
      · rfl
      · rintro rfl
        exact absurd rfl h

theorem pair_infix_cons_iff {first second c : Char} :
    [first, second] <:+: c :: rest ↔
      (c = first ∧ rest.head? = some second) ∨ [first, second] <:+: rest := by
  rw [List.infix_cons_iff, List.cons_prefix_cons]
  cases rest with
  | nil => simp
  | cons d rest => simp [eq_comm]

theorem cutAtClosing?_eq_none_iff : cutAtClosing? text = none ↔ ¬ ['*', '/'] <:+: text := by
  fun_induction cutAtClosing? text with
  | case1 => simp
  | case2 rest => simp [pair_infix_cons_iff]
  | case3 c rest hopen ih =>
      have hfirst : ¬ (c = '*' ∧ rest.head? = some '/') := by
        rintro ⟨rfl, hhead⟩
        obtain ⟨more, rfl⟩ := List.head?_eq_some_iff.1 hhead
        exact hopen more rfl rfl
      rw [Option.map_eq_none_iff, ih, pair_infix_cons_iff, or_iff_right hfirst]

theorem cutAtClosing?_append (h : cutAtClosing? text = some (body, rest)) (after : List Char) :
    cutAtClosing? (text ++ after) = some (body, rest ++ after) := by
  fun_induction cutAtClosing? text generalizing body with
  | case1 => cases h
  | case2 more =>
      cases h
      rfl
  | case3 c more hopen ih =>
      obtain ⟨⟨inner, last⟩, hcut, heq⟩ := Option.map_eq_some_iff.1 h
      cases heq
      rw [List.cons_append, cutAtClosing?, ih hcut]
      · rfl
      · rintro last' rfl hslash
        cases more with
        | nil => cases hcut
        | cons d more =>
            cases hslash
            exact hopen more rfl rfl

theorem dropBlockComments_of_cutAtClosing? (h : cutAtClosing? text = some (body, after)) :
    dropBlockComments true text = dropBlockComments false after := by
  fun_induction cutAtClosing? text generalizing body with
  | case1 => cases h
  | case2 rest => cases h; rfl
  | case3 c rest hopen ih =>
      obtain ⟨⟨inner, more⟩, hcut, heq⟩ := Option.map_eq_some_iff.1 h
      cases heq
      rw [dropBlockComments, ih hcut]
      exact hopen

theorem dropBlockComments_block (h : cutAtClosing? text = some (body, after)) :
    dropBlockComments false ('/' :: '*' :: text) = dropBlockComments false after := by
  have hclosing : ['*', '/'] <:+: text := by
    rw [eq_of_cutAtClosing? h]
    exact ⟨body, after, by simp⟩
  rw [dropBlockComments, if_pos (Text.occurs_iff_infix.2 hclosing),
    dropBlockComments_of_cutAtClosing? h]

/-! ## The pass for line comments -/

theorem dropLineComments_comment_cons {c : Char} (h : c ≠ '\n') (text : List Char) :
    dropLineComments .comment (c :: text) = dropLineComments .comment text := by
  rw [dropLineComments]
  exact h

/-- Behind the body of a line comment the first pass stands outside block comments, and what it has
left of the body is dropped by the second pass. -/
theorem dropLineComments_comment_append (hline : '\n' ∉ body)
    (hafter : ∀ c ∈ after.head?, c = '\n') (hbody : Passable after body) :
    dropLineComments .comment (dropBlockComments false (body ++ after)) =
      dropLineComments .comment (dropBlockComments false after) := by
  induction hbody with
  | nil => rfl
  | block hcut _ ih =>
      rw [List.cons_append, List.cons_append,
        dropBlockComments_block (cutAtClosing?_append hcut after)]
      refine ih fun hmem => hline ?_
      rw [eq_of_cutAtClosing? hcut]
      simp [hmem]
  | @unclosed text hopen _ ih =>
      rw [List.mem_cons, not_or] at hline
      have hstar : ∀ more, '*' :: text ++ after = '*' :: more → ¬ ['*', '/'] <:+: more := by
        rintro more heq
        obtain rfl : text ++ after = more := (List.cons.inj heq).2
        exact hopen
      rw [List.cons_append, dropBlockComments_slash hstar, dropLineComments_comment_cons (by decide)]
      exact ih hline.2
  | @char c text hchar _ ih =>
      rw [List.mem_cons, not_or] at hline
      rw [List.cons_append, dropBlockComments_code_cons, dropLineComments_comment_cons (Ne.symm hline.1)]
      · exact ih hline.2
      · intro hslash hhead
        cases text with
        | nil => exact absurd (hafter '*' hhead) (by decide)
        | cons d text => exact hchar hslash hhead

theorem dropLineComments_code_cons {previous : Option Char} {c : Char}
    (h : c = '/' → text.head? ≠ some '/') :
    dropLineComments (.code previous) (c :: text) =
      c :: dropLineComments (.code (some c)) text := by
  rw [dropLineComments]
  rintro more rfl rfl
  exact h rfl rfl

/-- At a line end it does not matter whether a comment comes before. -/
theorem dropLineComments_comment_eq (h : ∀ c ∈ after.head?, c = '\n') :
    dropLineComments .comment (dropBlockComments false after) =
      dropLineComments (.code none) (dropBlockComments false after) := by
  cases after with
  | nil => rfl
  | cons c rest =>
      obtain rfl := h c rfl
      rw [dropBlockComments_code_cons (by simp), dropLineComments_code_cons (by simp)]
      rfl

/-! ## Both passes -/

theorem head?_dropWhile_newline (text : List Char) :
    ∀ c ∈ (text.dropWhile (· != '\n')).head?, c = '\n' := by
  intro c hc
  have hnot := List.head?_dropWhile_not (· != '\n') text
  rw [Option.mem_def.1 hc] at hnot
  simpa using hnot

theorem newline_notMem_takeWhile (text : List Char) : '\n' ∉ text.takeWhile (· != '\n') :=
  fun hmem => absurd (List.mem_takeWhile_imp (p := (· != '\n')) hmem) (by decide)

theorem dropLineComments_dropBlockComments {previous : Option Char} (hprevious : previous ≠ some ':')
    (hcolon : ':' ∉ text) (h : LinesContained (piecesOf text)) :
    dropLineComments (.code previous) (dropBlockComments false text) = withoutComments text := by
  rw [withoutComments]
  fun_induction piecesOf text generalizing previous with
  | case1 => rfl
  | case2 rest ih =>
      have hbody := h [] _ _ rfl
      rw [textOf_piecesOf] at hbody
      have hrest : rest.takeWhile (· != '\n') ++ rest.dropWhile (· != '\n') = rest :=
        List.takeWhile_append_dropWhile
      have hopen : ∀ more, rest = '*' :: more → ¬ ['*', '/'] <:+: more := by
        rintro more rfl
        have hcut := hbody.begins (more.takeWhile (· != '\n')) rfl
        rwa [List.dropWhile_cons_of_pos (by decide), List.takeWhile_append_dropWhile] at hcut
      have hpass := dropLineComments_comment_append (newline_notMem_takeWhile rest)
        (head?_dropWhile_newline rest) hbody.passable
      rw [hrest, dropLineComments_comment_eq (head?_dropWhile_newline rest)] at hpass
      rw [dropBlockComments_code_cons (by simp), dropBlockComments_slash hopen, dropLineComments,
        if_neg hprevious, dropLineComments_comment_cons (by decide), hpass]
      refine ih (by simp) (fun hmem => hcolon ?_) h.tail
      exact List.mem_cons_of_mem _ (List.mem_cons_of_mem _ ((List.dropWhile_suffix _).subset hmem))
  | case3 rest body after hcut ih =>
      rw [dropBlockComments_block hcut]
      refine ih hprevious (fun hmem => hcolon ?_) h.tail
      rw [eq_of_cutAtClosing? hcut]
      simp [hmem]
  | case4 rest hcut ih =>
      have hopen : ∀ more, '*' :: rest = '*' :: more → ¬ ['*', '/'] <:+: more := by
        rintro more heq
        obtain rfl : rest = more := (List.cons.inj heq).2
        exact cutAtClosing?_eq_none_iff.1 hcut
      rw [List.mem_cons, not_or] at hcolon
      rw [dropBlockComments_slash hopen, dropLineComments_code_cons, ih (by decide) hcolon.2 h.tail]
      · rfl
      · rw [head?_dropBlockComments (by simp)]
        simp
  | case5 c rest hline hblock ih =>
      rw [List.mem_cons, not_or] at hcolon
      have hslash (d : Char) (hd : ∀ more, c = '/' → rest = d :: more → False) :
          c = '/' → rest.head? ≠ some d := by
        rintro hc hhead
        obtain ⟨more, rfl⟩ := List.head?_eq_some_iff.1 hhead
        exact hd more hc rfl
      rw [dropBlockComments_code_cons (hslash '*' hblock), dropLineComments_code_cons,
        ih (by simpa using Ne.symm hcolon.1) hcolon.2 h.tail]
      · rfl
      · intro hc
        rw [head?_dropBlockComments (hslash '/' hline hc)]
        exact hslash '/' hline hc

/-- A text is made of its pieces, and the two passes remove exactly its comments as long as no line
comment holds an opening mark that is closed behind it. -/
theorem dropComments_eq_withoutComments (text : List Char) (hcolon : ':' ∉ text)
    (h : LinesContained (piecesOf text)) :
    textOf (piecesOf text) = text ∧ dropComments text = withoutComments text :=
  ⟨textOf_piecesOf text, dropLineComments_dropBlockComments (by simp) hcolon h⟩

/-- A block comment in a line comment, and two slashes in a block comment. -/
theorem dropComments_eq_withoutComments_nested :
    ':' ∉ "a///*b*/\n/*c//d*/e".toList ∧ LinesContained (piecesOf "a///*b*/\n/*c//d*/e".toList) ∧
      dropComments "a///*b*/\n/*c//d*/e".toList = "a\ne".toList := by
  have hcolon : ':' ∉ "a///*b*/\n/*c//d*/e".toList := by decide
  have hpieces : piecesOf "a///*b*/\n/*c//d*/e".toList =
      [.code 'a', .line "/*b*/".toList, .code '\n', .block "c//d".toList, .code 'e'] := by cbv
  have hbody (after : List Char) : Contained "/*b*/".toList after :=
    ⟨.block rfl .nil, fun rest heq => absurd (List.cons.inj heq).1 (by decide)⟩
  have hlines : LinesContained (piecesOf "a///*b*/\n/*c//d*/e".toList) := by
    rw [hpieces]
    intro before body later heq
    have hmem := List.mem_append_right before (List.mem_cons_self (a := .line body) (l := later))
    rw [← heq] at hmem
    obtain rfl : body = "/*b*/".toList := by simpa using hmem
    exact hbody _
  refine ⟨hcolon, hlines, ?_⟩
  rw [(dropComments_eq_withoutComments _ hcolon hlines).2, withoutComments, hpieces]
  rfl

/-- Code between an opening mark in a line comment and the next closing mark is lost. -/
theorem dropComments_ne_withoutComments :
    (∀ c ∈ ['\'', '"', '`', ':'], c ∉ "// src/*.js\nport = 1;\n/* end */".toList) ∧
      dropComments "// src/*.js\nport = 1;\n/* end */".toList = [] ∧
      withoutComments "// src/*.js\nport = 1;\n/* end */".toList = "\nport = 1;\n".toList := by
  refine ⟨by decide, by decide, ?_⟩
  cbv

end EnvAudit.Source
