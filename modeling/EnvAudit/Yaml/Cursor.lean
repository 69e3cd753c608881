import EnvAudit.Text.Split

/-!
# Places in a document

A place is what is left of the text, with its line and column.  Columns decide what belongs to which
block; a byte order mark takes no column.
-/

namespace EnvAudit.Yaml

def isBreak (c : Char) : Bool :=
  c == '\n' || c == '\x85' || c == '\u2028' || c == '\u2029'

def isSpaceOrTab (c : Char) : Bool := c == ' ' || c == '\t'

def isGap (c : Char) : Bool := isSpaceOrTab c || isBreak c

/-- Whether the text ends here or goes on with a character that can stand after an indicator. -/
def gapFollows : List Char → Bool
  | [] => true
  | c :: _ => isGap c

/-- Whether the text ends here or goes on with a space or a line end. -/
def spaceFollows : List Char → Bool
  | [] => true
  | c :: _ => c == ' ' || isBreak c

def lineEndFollows : List Char → Bool
  | [] => true
  | c :: _ => isBreak c

/-- Whether a document ends or begins here: three hyphens or dots that stand alone. -/
def markFollows : List Char → Bool
  | '-' :: '-' :: '-' :: rest => gapFollows rest
  | '.' :: '.' :: '.' :: rest => gapFollows rest
  | _ => false

def isAllowed (c : Char) : Bool :=
  let n := c.toNat
  n == 0x9 || n == 0xa || n == 0xd || (0x20 ≤ n && n ≤ 0x7e) || n == 0x85
    || (0xa0 ≤ n && n ≤ 0xfffd) || 0x10000 ≤ n

/-- A place in a text. -/
structure Cursor where
  rest : List Char
  index : Nat := 0
  line : Nat := 0
  column : Nat := 0
deriving Repr

namespace Cursor

def next? (c : Cursor) : Option Char := c.rest.head?

def nextIs (c : Cursor) (test : Char → Bool) : Bool := c.next?.any test

def advance (c : Cursor) : Cursor :=
  match c.rest with
  | [] => c
  | ch :: rest =>
    if isBreak ch then { rest, index := c.index + 1, line := c.line + 1, column := 0 }
    else
      { c with
        rest, index := c.index + 1,
        column := if ch = '\ufeff' then c.column else c.column + 1 }

def skip : (count : Nat) → Cursor → Cursor
  | 0, c => c
  | count + 1, c => skip count c.advance

/-- The characters that pass a test, and the place after them. -/
def readWhile (c : Cursor) (test : Char → Bool) : List Char × Cursor :=
  let run := c.rest.takeWhile test
  (run, c.skip run.length)

def skipWhile (c : Cursor) (test : Char → Bool) : Cursor := (c.readWhile test).2

def skipSpaces (c : Cursor) : Cursor := c.skipWhile (· == ' ')

/-- The place at the end of the line if a comment begins here. -/
def skipComment (c : Cursor) : Cursor :=
  if c.nextIs (· == '#') then c.skipWhile (!isBreak ·) else c

/-- Reads a line end, if there is one; most are written as `\n`. -/
def readBreak (c : Cursor) : List Char × Cursor :=
  match c.next? with
  | none => ([], c)
  | some ch =>
    if isBreak ch then ([if ch = '\x85' then '\n' else ch], c.advance) else ([], c)

end Cursor

end EnvAudit.Yaml
