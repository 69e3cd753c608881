import EnvAudit.Yaml.Scalar
import EnvAudit.Yaml.Tag

/-!
# The tokens of a text

Reads the tokens of a text one after the other.  A block opens where something stands at a greater
column than the block around it, and closes at the next smaller column.  Where a key may stand its
place is remembered, since only the colon after it tells that it is one.
-/

namespace EnvAudit.Yaml

/-- The place of what may turn out to be a key. -/
structure KeyPlace where
  /-- The number of tokens in front of it. -/
  position : Nat
  /-- Whether nothing else than a key can stand there. -/
  required : Bool
  index : Nat
  line : Nat
  column : Nat
deriving Repr

/-- How far a text is read. -/
structure Scan where
  cursor : Cursor
  /-- The tokens so far, the last one first. -/
  tokens : List Token := []
  count : Nat := 0
  /-- The column of the innermost block. -/
  indent : Int := -1
  /-- The columns of the blocks around it, the innermost first. -/
  outer : List Int := []
  /-- What may be a key, for each open bracket, the innermost first. -/
  brackets : List (Option KeyPlace) := []
  /-- What may be a key outside of all brackets. -/
  blockKey : Option KeyPlace := none
  keyAllowed : Bool := true

namespace Scan

def inFlow (s : Scan) : Bool := !s.brackets.isEmpty

def emit (s : Scan) (t : Token) : Scan :=
  { s with tokens := t :: s.tokens, count := s.count + 1 }

/-- Adds a token after the first `position` ones. -/
def emitAt (s : Scan) (position : Nat) (t : Token) : Scan :=
  let later := s.count - position
  { s with tokens := s.tokens.take later ++ t :: s.tokens.drop later, count := s.count + 1 }

def keyLimit : Nat := 1024

def isStale (s : Scan) (k : KeyPlace) : Bool :=
  k.line != s.cursor.line || keyLimit < s.cursor.index - k.index

/-- Forgets a place that came too late for a colon. -/
def dropStale (s : Scan) (key : Option KeyPlace) : Except Fault (Option KeyPlace) :=
  match key with
  | none => .ok none
  | some k =>
    if !s.isStale k then .ok key else if k.required then .error .malformed else .ok none

/-- Forgets all places that came too late for a colon. -/
def dropStaleKeys (s : Scan) : Except Fault Scan := do
  return { s with
    blockKey := ← s.dropStale s.blockKey
    brackets := ← s.brackets.mapM s.dropStale }

def key? (s : Scan) : Option KeyPlace :=
  match s.brackets with
  | [] => s.blockKey
  | key :: _ => key

/-- Replaces what may be a key inside the innermost brackets. -/
def setKey (s : Scan) (key : Option KeyPlace) : Scan :=
  match s.brackets with
  | [] => { s with blockKey := key }
  | _ :: more => { s with brackets := key :: more }

/-- Gives up on a key that has not come to its colon. -/
def dropKey (s : Scan) : Except Fault Scan :=
  match s.key? with
  | none => .ok s
  | some k => if k.required then .error .malformed else .ok (s.setKey none)

def saveKey (s : Scan) : Except Fault Scan := do
  if !s.keyAllowed then return s
  let s ← s.dropKey
  let c := s.cursor
  let required := !s.inFlow && s.indent == (c.column : Int)
  return s.setKey (some
    { position := s.count, required, index := c.index, line := c.line, column := c.column })

/-- Closes the blocks whose column is greater than the given one. -/
def closeBlocks (s : Scan) (column : Int) : Scan :=
  if s.inFlow then s else go s s.indent s.outer
where
  go (s : Scan) (indent : Int) : List Int → Scan
    | [] => { s with indent, outer := [] }
    | around :: outer =>
      if column < indent then go (s.emit .blockEnd) around outer
      else { s with indent, outer := around :: outer }

/-- Opens a block at a column that is greater than that of the innermost block. -/
def openBlock (s : Scan) (column : Nat) (position : Nat) (start : Token) : Scan :=
  if s.indent < (column : Int) then
    { s.emitAt position start with indent := column, outer := s.indent :: s.outer }
  else s

/-- The scan after spaces, comments and line ends.  Outside of brackets a new line can begin with a
key. -/
def skipGaps : (fuel : Nat) → Scan → Scan
  | 0, s => s
  | fuel + 1, s =>
    let c := s.cursor.skipSpaces.skipComment
    if c.nextIs isBreak then
      skipGaps fuel { s with cursor := c.readBreak.2, keyAllowed := s.keyAllowed || !s.inFlow }
    else { s with cursor := c }

def take (s : Scan) (length : Nat) (t : Token) : Scan :=
  { s.emit t with cursor := s.cursor.skip length }

/-- Reads a mark at which a document begins or ends. -/
def documentMark (s : Scan) (t : Token) : Except Fault Scan := do
  let s ← (s.closeBlocks (-1)).dropKey
  return { s with keyAllowed := false }.take 3 t

def directive (s : Scan) : Except Fault Scan := do
  let s ← (s.closeBlocks (-1)).dropKey
  let (d, cursor) ← readDirective s.cursor
  return { s.emit (.directive d) with cursor, keyAllowed := false }

def openBracket (s : Scan) (t : Token) : Except Fault Scan := do
  let s ← s.saveKey
  return { s with brackets := none :: s.brackets, keyAllowed := true }.take 1 t

def closeBracket (s : Scan) (t : Token) : Except Fault Scan := do
  if !s.inFlow then throw .malformed
  let s ← s.dropKey
  return { s with brackets := s.brackets.drop 1, keyAllowed := false }.take 1 t

def comma (s : Scan) : Except Fault Scan := do
  let s ← s.dropKey
  return { s with keyAllowed := true }.take 1 .comma

def listItem (s : Scan) : Except Fault Scan := do
  if !s.inFlow && !s.keyAllowed then throw .malformed
  let s := if s.inFlow then s else s.openBlock s.cursor.column s.count .blockListStart
  let s ← s.dropKey
  return { s with keyAllowed := true }.take 1 .listItem

def explicitKey (s : Scan) : Except Fault Scan := do
  if !s.inFlow && !s.keyAllowed then throw .malformed
  let s := if s.inFlow then s else s.openBlock s.cursor.column s.count .blockMapStart
  let s ← s.dropKey
  return { s with keyAllowed := !s.inFlow }.take 1 .key

/-- Reads a colon; what may be a key in front of it is one. -/
def colon (s : Scan) : Except Fault Scan :=
  match s.key? with
  | some k =>
    let s := (s.setKey none).emitAt k.position .key
    let s := if s.inFlow then s else s.openBlock k.column k.position .blockMapStart
    .ok ({ s with keyAllowed := false }.take 1 .value)
  | none =>
    if !s.inFlow && !s.keyAllowed then .error .malformed
    else
      let s := if s.inFlow then s else s.openBlock s.cursor.column s.count .blockMapStart
      .ok ({ s with keyAllowed := !s.inFlow }.take 1 .value)

def content (s : Scan) (read : Cursor → Except Fault (Token × Cursor)) : Except Fault Scan := do
  let s ← s.saveKey
  let (t, cursor) ← read s.cursor
  return { s.emit t with cursor, keyAllowed := false }

def inQuotes (s : Scan) (double : Bool) : Except Fault Scan :=
  s.content fun c => do
    let (text, c) ← InQuotes.read double c
    return (.scalar text false, c)

def blockScalar (s : Scan) (folded : Bool) : Except Fault Scan := do
  let s ← s.dropKey
  let (text, cursor) ← Block.read folded s.indent s.cursor
  return { s.emit (.scalar text false) with cursor, keyAllowed := true }

def plain (s : Scan) : Except Fault Scan := do
  let s ← s.saveKey
  let (text, cursor, broken) := Plain.read s.inFlow (s.indent + 1) s.cursor
  return { s.emit (.scalar text true) with cursor, keyAllowed := broken }

def finish (s : Scan) : Except Fault Scan := (s.closeBlocks (-1)).dropKey

/-- Reads one token and the blocks that begin or end with it; `c` is the next character and `rest`
what follows it. -/
def token (s : Scan) (c : Char) (rest : List Char) : Except Fault Scan :=
  let lineStart := s.cursor.column == 0
  let marked := s.inFlow || gapFollows rest
  match c with
  | '%' => if lineStart then s.directive else .error .malformed
  | '[' => s.openBracket .flowListStart
  | '{' => s.openBracket .flowMapStart
  | ']' => s.closeBracket .flowListEnd
  | '}' => s.closeBracket .flowMapEnd
  | ',' => s.comma
  | '*' => s.content fun c => do
    let (name, c) ← readName c.advance
    return (.alias name, c)
  | '&' => s.content fun c => do
    let (name, c) ← readName c.advance
    return (.anchor name, c)
  | '!' => s.content fun c => do
    let (spelling, c) ← readTag c
    return (.tag spelling, c)
  | '\'' => s.inQuotes false
  | '"' => s.inQuotes true
  | _ =>
    if lineStart && markFollows (c :: rest) then
      s.documentMark (if c = '-' then .documentStart else .documentEnd)
    else if c = '-' ∧ gapFollows rest then s.listItem
    else if c = '?' ∧ marked then s.explicitKey
    else if c = ':' ∧ marked then s.colon
    else if c = '|' ∧ !s.inFlow then s.blockScalar false
    else if c = '>' ∧ !s.inFlow then s.blockScalar true
    else if Plain.begins s.inFlow (c :: rest) then s.plain
    else .error .malformed

/-- Reads tokens up to the end of the text or the first fault. -/
def run : (fuel : Nat) → Scan → Scan
  | 0, s => s
  | fuel + 1, s =>
    let next : Except Fault (Scan × Bool) := do
      let s ← (skipGaps (s.cursor.rest.length + 1) s).dropStaleKeys
      let s := s.closeBlocks s.cursor.column
      match s.cursor.rest with
      | [] => return (← s.finish, true)
      | c :: rest => return (← s.token c rest, false)
    match next with
    | .error cause => s.emit (.fault cause)
    | .ok (s, true) => s
    | .ok (s, false) => run fuel s

end Scan

/-- The tokens of a text. -/
def tokens (text : List Char) : List Token :=
  let start : Cursor := { rest := text }
  let start := if start.nextIs (· == '\ufeff') then start.advance else start
  let scan := Scan.run (text.length + 2) { cursor := start }
  scan.tokens.reverse

end EnvAudit.Yaml
