import EnvAudit.Text.Hex
import EnvAudit.Text.Utf8
import EnvAudit.Yaml.Cursor
import EnvAudit.Yaml.Token

/-!
# Tags, anchors and directives

A tag names the type of a node, an anchor names the node itself, and a directive speaks about the
document that follows.
-/

namespace EnvAudit.Yaml

/-- Whether a character can stand in an anchor or in a handle. -/
def isNameChar (c : Char) : Bool := c.isAlphanum || c == '-' || c == '_'

def isAddressChar (c : Char) : Bool := c.isAlphanum || "-;/?:@&=+$,_.!~*'()[]".toList.contains c

def readName (c : Cursor) : Except Fault (List Char × Cursor) := do
  let (name, c) := c.readWhile isNameChar
  if name.isEmpty then throw .malformed
  if !(gapFollows c.rest || c.nextIs ("?:,]\x7d%@\x60".toList.contains ·)) then throw .malformed
  return (name, c)

/-- Reads bytes written as a percent sign and two digits. -/
def readByteEscapes : (fuel : Nat) → Cursor → List UInt8 → Except Fault (List UInt8 × Cursor)
  | 0, _, _ => .error .malformed
  | fuel + 1, c, bytes =>
    match c.rest with
    | '%' :: a :: b :: _ =>
      if Text.isHexDigit a && Text.isHexDigit b then
        readByteEscapes fuel (c.skip 3) (bytes ++ [(Text.numberOfDigits 16 [a, b]).toUInt8])
      else .error .malformed
    | '%' :: _ => .error .malformed
    | _ => .ok (bytes, c)

/-- Reads an address, in which escaped bytes stand for the characters they encode. -/
def readAddressFrom : (fuel : Nat) → Cursor → List Char → Except Fault (List Char × Cursor)
  | 0, _, _ => .error .malformed
  | fuel + 1, c, text =>
    if c.nextIs isAddressChar then
      let (run, c) := c.readWhile isAddressChar
      readAddressFrom fuel c (text ++ run)
    else if c.nextIs (· == '%') then do
      let (bytes, c) ← readByteEscapes (c.rest.length + 1) c []
      match Text.Utf8.decode? ⟨bytes.toArray⟩ with
      | some run => readAddressFrom fuel c (text ++ run)
      | none => .error .malformed
    else if text.isEmpty then .error .malformed
    else .ok (text, c)

def readAddress (c : Cursor) : Except Fault (List Char × Cursor) :=
  readAddressFrom (c.rest.length + 1) c []

/-- Reads a handle: one exclamation mark, or a name between two. -/
def readHandle (c : Cursor) : Except Fault (List Char × Cursor) :=
  match c.rest with
  | '!' :: ' ' :: _ => .ok (['!'], c.advance)
  | '!' :: rest =>
    let name := rest.takeWhile isNameChar
    if (rest.drop name.length).head? = some '!' then
      .ok ('!' :: (name ++ ['!']), c.skip (name.length + 2))
    else .error .malformed
  | _ => .error .malformed

def readTag (c : Cursor) : Except Fault (TagSpelling × Cursor) := do
  let (tag, c) ←
    match c.rest.drop 1 with
    | '<' :: _ => do
      let (suffix, c) ← readAddress (c.skip 2)
      if !c.nextIs (· == '>') then throw .malformed
      pure ({ handle := none, suffix : TagSpelling }, c.advance)
    | rest => do
      if gapFollows rest then pure ({ handle := none, suffix := ['!'] : TagSpelling }, c.advance)
      else
        let word := rest.takeWhile fun ch => !(ch == ' ' || isBreak ch)
        let (handle, c) ← if word.contains '!' then readHandle c else pure (['!'], c.advance)
        let (suffix, c) ← readAddress c
        pure ({ handle := some handle, suffix : TagSpelling }, c)
  if !spaceFollows c.rest then throw .malformed
  return (tag, c)

def readVersionPart (c : Cursor) : Except Fault (Nat × Cursor) := do
  let (digits, c) := c.readWhile Char.isDigit
  if digits.isEmpty then throw .malformed
  return (Text.numberOfDigits 10 digits, c)

def readVersion (c : Cursor) : Except Fault (Directive × Cursor) := do
  let (major, c) ← readVersionPart c.skipSpaces
  if !c.nextIs (· == '.') then throw .malformed
  let (_, c) ← readVersionPart c.advance
  if !spaceFollows c.rest then throw .malformed
  return (.version major, c)

def readHandleDirective (c : Cursor) : Except Fault (Directive × Cursor) := do
  let (name, c) ← readHandle c.skipSpaces
  if !c.nextIs (· == ' ') then throw .malformed
  let (stands, c) ← readAddress c.skipSpaces
  if !spaceFollows c.rest then throw .malformed
  return (.handle name stands, c)

/-- Reads a directive from its percent sign on, with its line end. -/
def readDirective (c : Cursor) : Except Fault (Directive × Cursor) := do
  let (name, c) := c.advance.readWhile isNameChar
  if name.isEmpty || !spaceFollows c.rest then throw .malformed
  let (directive, c) ←
    if name = "YAML".toList then readVersion c
    else if name = "TAG".toList then readHandleDirective c
    else pure (.other, c.skipWhile (!isBreak ·))
  let c := c.skipSpaces.skipComment
  if !lineEndFollows c.rest then throw .malformed
  return (directive, c.readBreak.2)

end EnvAudit.Yaml
