import EnvAudit.Text.Blank
import EnvAudit.Text.Split

/-!
# Styled text

Text in which every character has a style.  A terminal shows a run of one style between two control
sequences; where styles are not shown the text stands alone.
-/

namespace EnvAudit.Terminal

/-- A color of the terminal. -/
inductive Color
  | red
  | green
  | yellow
  | blue
  | cyan
  | brightBlue
  | orange
deriving Repr, DecidableEq

def Color.code : Color → String
  | red => "31"
  | green => "32"
  | yellow => "33"
  | blue => "34"
  | cyan => "36"
  | brightBlue => "94"
  | orange => "38;5;214"

def Color.ofName? : String → Option Color
  | "red" => some .red
  | "green" => some .green
  | "yellow" => some .yellow
  | "blue" => some .blue
  | "cyan" => some .cyan
  | "bright_blue" => some .brightBlue
  | "orange1" => some .orange
  | _ => none

/-- How a character is shown. -/
structure Style where
  bold : Bool := false
  dim : Bool := false
  color : Option Color := none
deriving Repr, DecidableEq, Inhabited

namespace Style

def plain : Style := {}

/-- The style with what another one adds. -/
def adding (outer inner : Style) : Style where
  bold := outer.bold || inner.bold
  dim := outer.dim || inner.dim
  color := inner.color.orElse fun _ => outer.color

/-- The style that one word of a tag asks for; an unknown word asks for none. -/
def ofWord (word : String) : Style :=
  if word == "bold" then { bold := true }
  else if word == "dim" then { dim := true }
  else { color := Color.ofName? word }

def ofTag (tag : List Char) : Style :=
  ((Text.splitOn ' ' tag).map fun word => ofWord (String.ofList word)).foldl adding plain

end Style

abbrev StyledChar := Char × Style

abbrev StyledText := List StyledChar

namespace StyledText

def ofChars (style : Style) (text : List Char) : StyledText := text.map fun c => (c, style)

def chars (text : StyledText) : List Char := text.map (·.1)

end StyledText

/-- What the terminal can show. -/
inductive Palette
  /-- Characters only. -/
  | none
  /-- Everything but colors. -/
  | colorless
  /-- Everything. -/
  | full
deriving Repr, DecidableEq

namespace Palette

def codes (palette : Palette) (style : Style) : List String :=
  match palette with
  | none => []
  | colorless | full =>
    (if style.bold then ["1"] else []) ++ (if style.dim then ["2"] else [])
      ++ (if palette = full then (style.color.map Color.code).toList else [])

def showRun (palette : Palette) (style : Style) (text : List Char) : List Char :=
  match palette.codes style with
  | [] => text
  | codes => '\x1b' :: '[' :: (";".intercalate codes).toList ++ 'm' :: text ++ "\x1b[0m".toList

/-- A line as it is printed, with its line end. -/
def showLine (palette : Palette) (line : StyledText) : List Char :=
  let runs := line.splitBy fun a b => a.2 == b.2
  let showOne (run : StyledText) : List Char :=
    palette.showRun ((run.head?.map (·.2)).getD .plain) run.chars
  runs.flatMap showOne ++ ['\n']

def showLines (palette : Palette) (lines : List StyledText) : List Char :=
  lines.flatMap palette.showLine

end Palette

end EnvAudit.Terminal
