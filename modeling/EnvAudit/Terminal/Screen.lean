import EnvAudit.Terminal.Markup
import EnvAudit.Terminal.Wrap

/-!
# Printing on a screen

A screen has a width and shows some of all styles.  Lines are wrapped to its width, and boxes go from its
left edge to the right one.
-/

namespace EnvAudit.Terminal

/-- The palette when nothing is to be shown in color. -/
def Palette.withoutColor : Palette → Palette
  | none => none
  | colorless | full => colorless

def Palette.unless (palette : Palette) (noColor : Bool) : Palette :=
  if noColor then palette.withoutColor else palette

namespace Screen

def print (width : Nat) (palette : Palette) (markup : String) : Except MarkupError (List Char) :=
  (Markup.read markup).map fun text => palette.showLines (text.wrap width)

def pieceText (piece : StyledPiece) : StyledText :=
  .ofChars (.ofTag piece.style.toList) (piece.text.toList.filter (!Markup.isDropped ·))

def showPanel (width : Nat) (palette : Palette) (border : String) (pieces : List StyledPiece) :
    List Char :=
  palette.showLines (panel width (.ofTag border.toList) (pieces.flatMap pieceText))

end Screen

/-- A screen of a width. -/
@[reducible] def screen (width : Nat) (palette : Palette) : Console where
  escape := Markup.escape
  print noColor := Screen.print width (palette.unless noColor)
  panel noColor := Screen.showPanel width (palette.unless noColor)

end EnvAudit.Terminal
