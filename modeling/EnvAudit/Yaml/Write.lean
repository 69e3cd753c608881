import EnvAudit.Text.Hex
import EnvAudit.Yaml.Cursor
import EnvAudit.Yaml.Kind
import EnvAudit.Yaml.Library

/-!
# Writing documents

Documents of texts, lists of texts and maps, with one item or entry a line.  A text is written plain
if it reads back as the same text, in single quotes if these can hold it, and in double quotes
otherwise.  Long texts are folded at spaces.
-/

namespace EnvAudit.Yaml

namespace Writer

def width : Nat := 80

/-- The number of columns by which a block is moved in. -/
def step : Nat := 2

/-- What matters of a text for the choice of its style. -/
structure Traits where
  /-- It begins or ends with a space or a line end. -/
  looseEnds : Bool
  /-- It holds a character other than printable ASCII and line ends. -/
  special : Bool
  /-- A space follows a line end. -/
  breakSpace : Bool
  /-- A line end follows a space. -/
  spaceBreak : Bool
  /-- It holds a line end. -/
  breaks : Bool
  /-- It could be taken for something else than a text. -/
  marks : Bool
deriving Repr

def isPlainChar (c : Char) : Bool := c == '\n' || (0x20 ≤ c.toNat && c.toNat ≤ 0x7e)

/-- Whether some two characters in a row pass their tests. -/
def hasPair (first second : Char → Bool) : List Char → Bool
  | a :: b :: rest => (first a && second b) || hasPair first second (b :: rest)
  | _ => false

/-- Whether a mark stands at the start of a text. -/
def marksStart (text : List Char) : Bool :=
  match text with
  | [] => false
  | c :: rest =>
    ['-', '-', '-'].isPrefixOf text || ['.', '.', '.'].isPrefixOf text
      || "#,[]\x7b\x7d&*!|>'\"%@\x60".toList.contains c
      || ((c == '?' || c == ':' || c == '-') && gapFollows rest)

/-- Whether a mark stands after the start of a text: a colon with a gap after it, or a number sign
with a gap in front. -/
def marksLater : (afterGap : Bool) → List Char → Bool
  | _, [] => false
  | afterGap, c :: rest =>
    (c == ':' && gapFollows rest) || (c == '#' && afterGap) || marksLater (isGap c) rest

def traits (text : List Char) : Traits where
  looseEnds := (text.head?.any fun c => c == ' ' || isBreak c)
    || (text.getLast?.any fun c => c == ' ' || isBreak c)
  special := text.any (!isPlainChar ·)
  breakSpace := hasPair isBreak (· == ' ') text
  spaceBreak := hasPair (· == ' ') isBreak text
  breaks := text.any isBreak
  marks := marksStart text || match text with
    | [] => false
    | c :: rest => marksLater (isGap c) rest

def plainFits (text : List Char) : Bool :=
  let t := traits text
  Spelling.kind text == .text && !t.looseEnds && !t.special && !t.breakSpace && !t.spaceBreak
    && !t.breaks && !t.marks

def singleFits (text : List Char) : Bool :=
  let t := traits text
  !t.special && !t.breakSpace && !t.spaceBreak

def newLine (indent : Nat) : List Char := '\n' :: List.replicate indent ' '

/-- Cuts a text into runs of spaces, runs of line ends, quotes, and runs of anything else. -/
def runs (text : List Char) : List (List Char) :=
  text.splitBy fun a b => sort a == sort b && a != '\''
where
  /-- What sort of run a character belongs to. -/
  sort (c : Char) : Nat :=
    if c == ' ' then 0 else if c == '\n' then 1 else if c == '\'' then 2 else 3

/-- Writes runs of a text in single quotes or plain.  A single space beyond the width is written as
a line end, unless it stands at an end of the text.  Of line ends there is one more than in the
text.  A quote is doubled. -/
def folded (indent : Nat) : (column : Nat) → (first : Bool) → List (List Char) → List Char
  | _, _, [] => []
  | column, first, run :: rest =>
    match run with
    | ' ' :: more =>
      if more.isEmpty && width < column && !first && !rest.isEmpty then
        newLine indent ++ folded indent indent false rest
      else run ++ folded indent (column + run.length) false rest
    | '\n' :: _ => '\n' :: (run.dropLast ++ newLine indent) ++ folded indent indent false rest
    | ['\''] => '\'' :: '\'' :: folded indent (column + 2) false rest
    | _ => run ++ folded indent (column + run.length) false rest

/-- Writes a text plain; a single space beyond the width is written as a line end. -/
def plain (indent column : Nat) (text : List Char) : List Char :=
  let rec go (column : Nat) : List (List Char) → List Char
    | [] => []
    | run :: rest =>
      if run = [' '] ∧ width < column then newLine indent ++ go indent rest
      else run ++ go (column + run.length) rest
  go column (text.splitBy fun a b => (a == ' ') == (b == ' '))

def single (indent column : Nat) (text : List Char) : List Char :=
  '\'' :: (folded indent (column + 1) true (runs text) ++ ['\''])

def escapeLetter? (c : Char) : Option Char :=
  match c.toNat with
  | 0x0 => some '0'
  | 0x7 => some 'a'
  | 0x8 => some 'b'
  | 0x9 => some 't'
  | 0xa => some 'n'
  | 0xb => some 'v'
  | 0xc => some 'f'
  | 0xd => some 'r'
  | 0x1b => some 'e'
  | 0x22 => some '"'
  | 0x5c => some '\\'
  | 0x85 => some 'N'
  | 0xa0 => some '_'
  | 0x2028 => some 'L'
  | 0x2029 => some 'P'
  | _ => none

def capitals (count code : Nat) : List Char := (Text.hexDigits count code).map Char.toUpper

def escape (c : Char) : List Char :=
  match escapeLetter? c with
  | some letter => ['\\', letter]
  | none =>
    let n := c.toNat
    if 0x20 ≤ n ∧ n ≤ 0x7e then [c]
    else if n ≤ 0xff then '\\' :: 'x' :: capitals 2 n
    else if n ≤ 0xffff then '\\' :: 'u' :: capitals 4 n
    else '\\' :: 'U' :: capitals 8 n

/-- Writes the characters of a text between double quotes.  `pending` is what is not yet counted in
the column.  Beyond the width a line ends with a backslash, in front of a space or after an escape;
another backslash keeps a space at the start of the next line. -/
def escaped (indent : Nat) : (column : Nat) → (pending : Nat) → (first : Bool) → List Char →
    List Char
  | _, _, _, [] => []
  | column, pending, first, c :: rest =>
    let piece := escape c
    let isEscape := piece.length != 1
    let column := if isEscape then column + pending + piece.length else column
    let before := if isEscape then 0 else pending
    let reached := if isEscape then column - 1 else column + before
    let mayBreak := !first && !rest.isEmpty && (c == ' ' || isEscape || before == 0)
      && width < reached
    if mayBreak then
      if isEscape then
        let start := if rest.head? = some ' ' then ['\\'] else []
        piece ++ '\\' :: (newLine indent ++ start)
          ++ escaped indent (indent + start.length) 0 false rest
      else
        let start := if c = ' ' then ['\\'] else []
        '\\' :: (newLine indent ++ start) ++ piece
          ++ escaped indent (indent + start.length) 1 false rest
    else piece ++ escaped indent column (if isEscape then 0 else before + 1) false rest

def double (indent column : Nat) (text : List Char) : List Char :=
  '"' :: (escaped indent (column + 1) 0 true text ++ ['"'])

/-- Writes a text at a column; lines after the first are moved in. -/
def scalar (indent column : Nat) (text : List Char) : List Char :=
  if plainFits text then plain indent column text
  else if singleFits text then single indent column text
  else double indent column text

def items (indent : Nat) (texts : List String) : List Char :=
  texts.flatMap fun s =>
    List.replicate indent ' ' ++ '-' :: ' ' :: scalar (indent + step) (indent + 2) s.toList
      ++ ['\n']

mutual

def afterName (indent column : Nat) : Document → List Char
  | .text s => ' ' :: scalar (indent + step) (column + 1) s.toList ++ ['\n']
  | .list texts => if texts.isEmpty then " []\n".toList else '\n' :: items indent texts
  | .map fields =>
    if fields.isEmpty then " \x7b\x7d\n".toList else '\n' :: writeFields (indent + step) fields

/-- Writes the fields of a map, whose names have to be plain words. -/
def writeFields (indent : Nat) : List (String × Document) → List Char
  | [] => []
  | (name, d) :: rest =>
    List.replicate indent ' ' ++ name.toList ++ ':' :: afterName indent (indent + name.length + 1) d
      ++ writeFields indent rest

end

end Writer

/-- The text of a map with the given fields, whose names have to be plain words. -/
def write (fields : List (String × Document)) : String :=
  String.ofList (Writer.writeFields 0 fields)

end EnvAudit.Yaml
