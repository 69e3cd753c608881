/-!
# Terminals

What is told to a user is markup: text with the names of styles in brackets, which turn the styles on
and, after a slash, off again.  A library prints it on a terminal.  It knows the width of the terminal
and how styles are shown there; nothing in the program depends on these.
-/

namespace EnvAudit.Terminal

/-- A line of markup cannot be printed, since a tag in it closes nothing or makes no sense. -/
structure MarkupError where
deriving Repr, DecidableEq

/-- A text in the style of a name. -/
structure StyledPiece where
  style : String
  text : String
deriving Repr, DecidableEq

/-- What prints on a terminal.  Without colors, styles are shown in other ways. -/
class Console where
  /-- The markup that stands for a text as it is. -/
  escape : (text : String) → String
  /-- What is printed for a line of markup, with the end of the line. -/
  print : (noColor : Bool) → (markup : String) → Except MarkupError (List Char)
  /-- What is printed for a text in a box; the style of the border is given by name. -/
  panel : (noColor : Bool) → (border : String) → List StyledPiece → List Char

/-- What has been printed, and the error that ended it, if one did. -/
structure Printout where
  text : List Char := []
  error : Option MarkupError := none
deriving Repr, DecidableEq

/-- Text between the tag of a style and the tag that closes it. -/
def tagged (style inner : String) : String := s!"[{style}]" ++ inner ++ s!"[/{style}]"

variable [Console]

/-- Prints lines of markup, up to the first one that cannot be printed. -/
def printLines (noColor : Bool) : List String → Printout
  | [] => {}
  | line :: rest =>
    match Console.print noColor line with
    | .error cause => { error := some cause }
    | .ok printed =>
      let more := printLines noColor rest
      { more with text := printed ++ more.text }

end EnvAudit.Terminal
