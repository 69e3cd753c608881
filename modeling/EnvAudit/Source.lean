import EnvAudit.Text.Case
import EnvAudit.Text.Split

/-!
# Source text

Removal of what is not code: comments, and the template and style sections of single-file
components.  Removal is textual, so a comment marker inside a string literal counts as one.
-/

namespace EnvAudit.Source

/-- Removes `/* … */` comments.  An opening marker that no closing marker follows is kept.  `inside`
says whether the text begins inside a comment. -/
def dropBlockComments : (inside : Bool) → List Char → List Char
  | _, [] => []
  | true, '*' :: '/' :: rest => dropBlockComments false rest
  | true, _ :: rest => dropBlockComments true rest
  | false, '/' :: '*' :: rest =>
    if Text.occurs ['*', '/'] rest then dropBlockComments true rest
    else '/' :: dropBlockComments false ('*' :: rest)
  | false, c :: rest => c :: dropBlockComments false rest

/-- Where the removal of line comments stands: in a comment, or in code after a character. -/
inductive LineState
  | comment
  | code (previous : Option Char)
deriving Repr, DecidableEq

/-- Removes each `//` comment up to the end of its line.  Slashes right after a colon belong to a
web address and are kept. -/
def dropLineComments : LineState → List Char → List Char
  | _, [] => []
  | .comment, '\n' :: rest => '\n' :: dropLineComments (.code (some '\n')) rest
  | .comment, _ :: rest => dropLineComments .comment rest
  | .code previous, '/' :: '/' :: rest =>
    if previous = some ':' then '/' :: dropLineComments (.code (some '/')) ('/' :: rest)
    else dropLineComments .comment ('/' :: rest)
  | .code _, c :: rest => c :: dropLineComments (.code (some c)) rest

/-- Removes both kinds of comments, block comments first. -/
def dropComments (text : List Char) : List Char :=
  dropLineComments (.code none) (dropBlockComments false text)

/-- Whether the text begins with `part` in any letter case. -/
def beginsAnyCase : (part : List Char) → (text : List Char) → Bool
  | [], _ => true
  | _ :: _, [] => false
  | p :: part, c :: text => Text.sameLetter c p && beginsAnyCase part text

/-- Whether `part` occurs in the text in any letter case. -/
def occursAnyCase (part : List Char) : List Char → Bool
  | [] => part.isEmpty
  | c :: text => beginsAnyCase part (c :: text) || occursAnyCase part text

/-- Removes every section from an opening to the next closing text, in any letter case.  An opening
that nothing closes is kept.  `skip` counts the characters of a marker still to be dropped, and
`inside` says whether the text begins inside a section. -/
def dropSections (opening closing : List Char) :
    (skip : Nat) → (inside : Bool) → List Char → List Char
  | _, _, [] => []
  | skip + 1, inside, _ :: rest => dropSections opening closing skip inside rest
  | 0, true, c :: rest =>
    if beginsAnyCase closing (c :: rest) then
      dropSections opening closing (closing.length - 1) false rest
    else dropSections opening closing 0 true rest
  | 0, false, c :: rest =>
    if beginsAnyCase opening (c :: rest)
        && occursAnyCase closing ((c :: rest).drop opening.length) then
      dropSections opening closing (opening.length - 1) true rest
    else c :: dropSections opening closing 0 false rest

def dropElement (name : String) (text : List Char) : List Char :=
  dropSections ('<' :: name.toList) ('<' :: '/' :: (name.toList ++ ['>'])) 0 false text

def dropMarkup (text : List Char) : List Char := dropElement "style" (dropElement "template" text)

/-- The code of a source text: without its comments if `comments`, and without its template and
style sections if `markup`. -/
def code (text : List Char) (comments markup : Bool) : List Char :=
  let text := if comments then dropComments text else text
  if markup then dropMarkup text else text

end EnvAudit.Source
