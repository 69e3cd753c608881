import EnvAudit.Terminal.CellWidth
import EnvAudit.Terminal.Style

/-!
# Wrapping lines

A line that is too wide for the terminal is cut between words.  A word keeps the blanks after it, so
those at the end of a line may go over its width and are dropped; a word wider than a line is cut
anywhere.
-/

namespace EnvAudit.Terminal

namespace StyledText

def isBlank (c : StyledChar) : Bool := Text.isBlank c.1

def width (text : StyledText) : Nat := Terminal.width text.chars

def trimEnd (text : StyledText) : StyledText := (text.reverse.dropWhile isBlank).reverse

def lines (text : StyledText) : List StyledText :=
  match text with
  | [] => [[]]
  | c :: rest =>
    if c.1 = '\n' then [] :: lines rest
    else
      match lines rest with
      | [] => [[c]]
      | line :: more => (c :: line) :: more

def tabStop : Nat := 8

/-- Writes spaces for tabs, up to the next tab stop. -/
def expandTabs (column : Nat) : StyledText → StyledText
  | [] => []
  | (c, style) :: rest =>
    if c = '\t' then
      let count := tabStop - column % tabStop
      List.replicate count (' ', style) ++ expandTabs (column + count) rest
    else (c, style) :: expandTabs (column + charWidth c) rest

/-- Cuts a line into words, each with the blanks after it; the first one has those in front too.
`inBlanks` says whether a word has ended. -/
def wordsFrom (inBlanks : Bool) (word : StyledText) : StyledText → List StyledText
  | [] => [word.reverse]
  | c :: rest =>
    if isBlank c then wordsFrom (word.any (!isBlank ·)) (c :: word) rest
    else if inBlanks then word.reverse :: wordsFrom false [c] rest
    else wordsFrom false (c :: word) rest

def words (line : StyledText) : List StyledText := wordsFrom false [] line

def chop (limit : Nat) (used : Nat) (piece : StyledText) : StyledText → List StyledText
  | [] => [piece.reverse]
  | c :: rest =>
    let width := charWidth c.1
    if limit < used + width then piece.reverse :: chop limit width [c] rest
    else chop limit (used + width) (c :: piece) rest

/-- Puts words on lines; `line` is the line so far and `used` the number of its cells. -/
def place (limit : Nat) (line : StyledText) (used : Nat) : List StyledText → List StyledText
  | [] => [line]
  | word :: rest =>
    let needed := width (trimEnd word)
    if used + needed ≤ limit then place limit (line ++ word) (used + width word) rest
    else
      let before := if line.isEmpty then [] else [line]
      if limit < needed then
        let pieces := chop limit 0 [] word
        let last := pieces.getLast?.getD []
        before ++ pieces.dropLast ++ place limit last (width last) rest
      else before ++ place limit word (width word) rest

/-- Drops blanks at the end of a line that go over its width. -/
def trimExcess (limit : Nat) (line : StyledText) : StyledText :=
  let blanks := line.length - (trimEnd line).length
  line.take (line.length - min blanks (line.length - limit))

/-- Cuts off what goes over the width of a line. -/
def crop (limit : Nat) (line : StyledText) : StyledText :=
  if width line ≤ limit then line
  else (cut limit line.chars).zip (line.map (·.2))

/-- The lines of a text in a column of the given width. -/
def wrap (limit : Nat) (text : StyledText) : List StyledText :=
  (lines text).flatMap fun line =>
    (place limit [] 0 (words (expandTabs 0 line))).map fun line =>
      crop limit (trimExcess limit line)

def padded (limit : Nat) (line : StyledText) : StyledText :=
  line ++ List.replicate (limit - width line) (' ', .plain)

end StyledText

/-- A text in a box across the whole width of the terminal. -/
def panel (limit : Nat) (border : Style) (text : StyledText) : List StyledText :=
  let inner := limit - 4
  let rule (left right : Char) : StyledText :=
    .ofChars border (left :: (List.replicate (limit - 2) '─' ++ [right]))
  let side : StyledText := [('│', border)]
  let space : StyledText := [(' ', .plain)]
  let body := (text.wrap inner).map fun line =>
    side ++ space ++ StyledText.padded inner line ++ space ++ side
  rule '╭' '╮' :: (body ++ [rule '╰' '╯'])

end EnvAudit.Terminal
