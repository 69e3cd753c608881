import EnvAudit.Text.Hex
import EnvAudit.Yaml.Cursor
import EnvAudit.Yaml.Token

/-!
# Texts of scalars

A scalar is written plain, in quotes or as a block.  A line end inside is folded: a single one
counts as a space, and of several the first vanishes.
-/

namespace EnvAudit.Yaml

/-- What a line end and the empty lines after it come to in a folded text. -/
def foldBreaks (first : List Char) (more : List Char) : List Char :=
  if first ≠ ['\n'] then first ++ more else if more.isEmpty then [' '] else more

namespace Plain

def isFlowMark (c : Char) : Bool := [',', '?', '[', ']', '{', '}'].contains c

/-- Whether the colon in front of a text ends a plain scalar. -/
def colonEnds (flow : Bool) : List Char → Bool
  | [] => true
  | c :: _ => isGap c || (flow && [',', '[', ']', '{', '}'].contains c)

/-- The number of characters up to the next gap or mark that ends the scalar. -/
def runLength (flow : Bool) : List Char → Nat
  | [] => 0
  | c :: rest =>
    if isGap c || (c == ':' && colonEnds flow rest) || (flow && isFlowMark c) then 0
    else runLength flow rest + 1

def begins (flow : Bool) : List Char → Bool
  | [] => false
  | c :: rest =>
    let marks := "-?:,[]\x7b\x7d#&*!|>'\"%@\x60".toList
    (!isGap c && !marks.contains c)
      || (!gapFollows rest && (c == '-' || (!flow && (c == '?' || c == ':'))))

/-- Reads the empty lines and the indentation after a line end, up to a line that begins or ends a
document; `none` if there is one. -/
def emptyLines : (fuel : Nat) → Cursor → List Char → Option (List Char × Cursor)
  | 0, c, breaks => some (breaks, c)
  | fuel + 1, c, breaks =>
    if c.nextIs (· == ' ') then emptyLines fuel c.advance breaks
    else if c.nextIs isBreak then
      let (br, c) := c.readBreak
      if markFollows c.rest then none else emptyLines fuel c (breaks ++ br)
    else some (breaks, c)

/-- What stands between two runs of a plain scalar. -/
structure Space where
  text : List Char
  after : Cursor
  /-- Whether there is a line end in it. -/
  broken : Bool

def readSpace (c : Cursor) : Space :=
  let (spaces, c) := c.readWhile (· == ' ')
  if c.nextIs isBreak then
    let (first, c) := c.readBreak
    if markFollows c.rest then { text := [], after := c, broken := true }
    else
      match emptyLines (c.rest.length + 1) c [] with
      | none => { text := [], after := c, broken := true }
      | some (more, c) => { text := foldBreaks first more, after := c, broken := true }
  else { text := spaces, after := c, broken := false }

/-- Reads a plain scalar whose lines stand at or after a column. -/
def readFrom : (fuel : Nat) → (flow : Bool) → (indent : Int) → (space : Space) →
    (text : List Char) → List Char × Space
  | 0, _, _, space, text => (text, space)
  | fuel + 1, flow, indent, space, text =>
    let c := space.after
    let length := runLength flow c.rest
    if c.nextIs (· == '#') || length == 0 then (text, space)
    else
      let text := text ++ space.text ++ c.rest.take length
      let space := readSpace (c.skip length)
      if space.text.isEmpty || space.after.nextIs (· == '#')
          || (!flow && (space.after.column : Int) < indent) then (text, space)
      else readFrom fuel flow indent space text

/-- Reads a plain scalar.  Gives its text, the place after it and whether a line end was read
last. -/
def read (flow : Bool) (indent : Int) (c : Cursor) : List Char × Cursor × Bool :=
  let start : Space := { text := [], after := c, broken := false }
  let (text, space) := readFrom (c.rest.length + 1) flow indent start []
  (text, space.after, space.broken)

end Plain

namespace InQuotes

def escaped? : Char → Option Char
  | '0' => some '\x00'
  | 'a' => some '\x07'
  | 'b' => some '\x08'
  | 't' => some '\t'
  | '\t' => some '\t'
  | 'n' => some '\n'
  | 'v' => some '\x0b'
  | 'f' => some '\x0c'
  | 'r' => some '\r'
  | 'e' => some '\x1b'
  | ' ' => some ' '
  | '"' => some '"'
  | '\\' => some '\\'
  | '/' => some '/'
  | 'N' => some '\x85'
  | '_' => some '\xa0'
  | 'L' => some '\u2028'
  | 'P' => some '\u2029'
  | _ => none

/-- The number of digits after an escape that names a code point. -/
def digitCount? : Char → Option Nat
  | 'x' => some 2
  | 'u' => some 4
  | 'U' => some 8
  | _ => none

/-- Reads the empty lines inside quotes; the blanks of each line are dropped. -/
def readBreaks : (fuel : Nat) → Cursor → List Char → Except Fault (List Char × Cursor)
  | 0, _, _ => .error .malformed
  | fuel + 1, c, breaks =>
    if markFollows c.rest then .error .malformed
    else
      let c := c.skipWhile isSpaceOrTab
      if c.nextIs isBreak then
        let (br, c) := c.readBreak
        readBreaks fuel c (breaks ++ br)
      else .ok (breaks, c)

def readEscape (c : Cursor) : Except Fault (List Char × Cursor) :=
  match c.next? with
  | none => .error .malformed
  | some ch =>
    match escaped? ch, digitCount? ch with
    | some e, _ => .ok ([e], c.advance)
    | none, some count =>
      let digits := c.advance.rest.take count
      if digits.length < count ∨ digits.any (!Text.isHexDigit ·) then .error .malformed
      else
        let code := Text.numberOfDigits 16 digits
        if 0x10ffff < code then .error (.codePoint code)
        else .ok ([Char.ofNat code], c.skip (count + 1))
    | none, none =>
      if isBreak ch then readBreaks (c.rest.length + 1) c.readBreak.2 [] else .error .malformed

def readSpace (c : Cursor) : Except Fault (List Char × Cursor) :=
  let (spaces, c) := c.readWhile isSpaceOrTab
  if c.rest.isEmpty then .error .malformed
  else if c.nextIs isBreak then do
    let (first, c) := c.readBreak
    let (more, c) ← readBreaks (c.rest.length + 1) c []
    return (foldBreaks first more, c)
  else .ok (spaces, c)

def readFrom : (fuel : Nat) → (double : Bool) → Cursor → List Char →
    Except Fault (List Char × Cursor)
  | 0, _, _, _ => .error .malformed
  | fuel + 1, double, c, text =>
    match c.rest with
    | [] => .error .malformed
    | '\'' :: rest =>
      if double then readFrom fuel double c.advance (text ++ ['\''])
      else if rest.head? = some '\'' then readFrom fuel double (c.skip 2) (text ++ ['\''])
      else .ok (text, c.advance)
    | '"' :: _ =>
      if double then .ok (text, c.advance) else readFrom fuel double c.advance (text ++ ['"'])
    | '\\' :: _ =>
      if double then do
        let (piece, c) ← readEscape c.advance
        readFrom fuel double c (text ++ piece)
      else readFrom fuel double c.advance (text ++ ['\\'])
    | ch :: _ =>
      if isGap ch then do
        let (piece, c) ← readSpace c
        readFrom fuel double c (text ++ piece)
      else readFrom fuel double c.advance (text ++ [ch])

/-- Reads a scalar in quotes, from its opening quote on. -/
def read (double : Bool) (c : Cursor) : Except Fault (List Char × Cursor) :=
  readFrom (c.rest.length + 1) double c.advance []

end InQuotes

namespace Block

/-- What becomes of the line ends at the end of a block. -/
inductive Chomping
  | strip
  | clip
  | keep
deriving Repr, DecidableEq

/-- The header of a block: its chomping, and its depth if it is given. -/
structure Header where
  chomping : Chomping := .clip
  depth : Option Nat := none
deriving Repr, DecidableEq

def readChomping (h : Header) (c : Cursor) : Header × Cursor :=
  match c.next? with
  | some '+' => ({ h with chomping := .keep }, c.advance)
  | some '-' => ({ h with chomping := .strip }, c.advance)
  | _ => (h, c)

def readDepth (h : Header) (c : Cursor) : Except Fault (Header × Cursor) :=
  match c.next? with
  | some ch =>
    if !ch.isDigit then .ok (h, c)
    else if ch = '0' then .error .malformed
    else .ok ({ h with depth := some (ch.toNat - '0'.toNat) }, c.advance)
  | none => .ok (h, c)

/-- Reads the header after the mark of the block, with its line end. -/
def readHeader (c : Cursor) : Except Fault (Header × Cursor) := do
  let (h, c) ←
    if c.nextIs Char.isDigit then do
      let (h, c) ← readDepth {} c
      pure (readChomping h c)
    else
      let (h, c) := readChomping {} c
      if h.chomping = .clip then pure (h, c) else readDepth h c
  if !spaceFollows c.rest then throw .malformed
  let c := c.skipSpaces.skipComment
  if !lineEndFollows c.rest then throw .malformed
  return (h, c.readBreak.2)

/-- Reads the empty lines in front of a block whose depth is not given, and the greatest column of
any of them. -/
def leadingLines : (fuel : Nat) → Cursor → List Char → Nat → List Char × Nat × Cursor
  | 0, c, breaks, deepest => (breaks, deepest, c)
  | fuel + 1, c, breaks, deepest =>
    if c.nextIs (· == ' ') then
      let c := c.advance
      leadingLines fuel c breaks (max deepest c.column)
    else if c.nextIs isBreak then
      let (br, c) := c.readBreak
      leadingLines fuel c (breaks ++ br) deepest
    else (breaks, deepest, c)

/-- The place after the spaces in front of a column. -/
def skipIndent (indent : Nat) (c : Cursor) : Cursor :=
  c.skip ((c.rest.takeWhile (· == ' ')).take (indent - c.column)).length

/-- Reads empty lines; of each line only the spaces in front of the column are dropped. -/
def emptyLines : (fuel : Nat) → (indent : Nat) → Cursor → List Char → List Char × Cursor
  | 0, _, c, breaks => (breaks, c)
  | fuel + 1, indent, c, breaks =>
    let c := skipIndent indent c
    if c.nextIs isBreak then
      let (br, c) := c.readBreak
      emptyLines fuel indent c (breaks ++ br)
    else (breaks, c)

/-- Reads the lines of a block; `breaks` are the line ends in front of the next line.  Gives the
text, the last line end and the empty lines after it. -/
def lines : (fuel : Nat) → (folded : Bool) → (indent : Nat) → Cursor → (breaks : List Char) →
    (lastBreak : List Char) → (text : List Char) → List Char × List Char × List Char × Cursor
  | 0, _, _, c, breaks, lastBreak, text => (text, lastBreak, breaks, c)
  | fuel + 1, folded, indent, c, breaks, lastBreak, text =>
    if c.column ≠ indent ∨ c.rest.isEmpty then (text, lastBreak, breaks, c)
    else
      let flush := !c.nextIs isSpaceOrTab
      let (line, c) := c.readWhile (!isBreak ·)
      let text := text ++ breaks ++ line
      let (lineBreak, c) := c.readBreak
      let (breaks, c) := emptyLines (c.rest.length + 1) indent c []
      if c.column = indent ∧ !c.rest.isEmpty then
        let joint :=
          if folded && lineBreak == ['\n'] && flush && !c.nextIs isSpaceOrTab then
            if breaks.isEmpty then [' '] else []
          else lineBreak
        lines fuel folded indent c breaks lineBreak (text ++ joint)
      else (text, lineBreak, breaks, c)

/-- Reads a block scalar inside a block at `parent`, from its mark on. -/
def read (folded : Bool) (parent : Int) (c : Cursor) : Except Fault (List Char × Cursor) := do
  let (h, c) ← readHeader c.advance
  let least := (max 1 (parent + 1)).toNat
  let (breaks, indent, c) :=
    match h.depth with
    | none =>
      let (breaks, deepest, c) := leadingLines (c.rest.length + 1) c [] 0
      (breaks, max least deepest, c)
    | some depth =>
      let indent := least + depth - 1
      let (breaks, c) := emptyLines (c.rest.length + 1) indent c []
      (breaks, indent, c)
  let (text, lastBreak, breaks, c) := lines (c.rest.length + 1) folded indent c breaks [] []
  match h.chomping with
  | .strip => return (text, c)
  | .clip => return (text ++ lastBreak, c)
  | .keep => return (text ++ lastBreak ++ breaks, c)

end Block

end EnvAudit.Yaml
