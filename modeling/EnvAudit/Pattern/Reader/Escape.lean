import EnvAudit.Pattern.Reader.Basic

/-!
# Escapes and classes

What stands behind a backslash, and the classes in brackets.
-/

namespace EnvAudit.Pattern.Read

/-- The kind that an escaped letter stands for, and whether it is left out. -/
def kindOf? : Char → Option (CharKind × Bool)
  | 'd' => some (.digit, false)
  | 'D' => some (.digit, true)
  | 's' => some (.blank, false)
  | 'S' => some (.blank, true)
  | 'w' => some (.word, false)
  | 'W' => some (.word, true)
  | _ => none

def controlOf? : Char → Option Char
  | 'a' => some '\x07'
  | 'f' => some '\x0c'
  | 'n' => some '\n'
  | 'r' => some '\r'
  | 't' => some '\t'
  | 'v' => some '\x0b'
  | '\\' => some '\\'
  | _ => none

/-- The code point of an escape that is written alike inside and outside of classes. -/
def sharedEscape (c : Char) : Read Nat := do
  match controlOf? c with
  | some control => return control.toNat
  | none =>
    match c with
    | 'N' =>
      expect '\x7b'
      let name ← takeUntil '\x7d'
      match (← get).named (String.ofList name) with
      | none => fail
      | some c => return c.toNat
    | 'x' => hexNumber 2
    | 'u' => hexNumber 4
    | 'U' =>
      let code ← hexNumber 8
      if 0x10ffff < code then fail
      return code
    | c => if c.isAlphanum then fail else return c.toNat

/-- An escape inside a class: a code point or a kind. -/
def classEscape (flags : Flags) : Read (Nat ⊕ ClassItem) := do
  let c ← next
  if c = 'b' then return .inl 8
  match kindOf? c with
  | some (kind, negated) => return .inr (.kind kind flags.asciiOnly negated)
  | none =>
    if isOctal c then
      let more ← takeUpTo 2 isOctal
      let code := Text.numberOfDigits 8 (c :: more)
      if 0o377 < code then fail
      return .inl code
    return .inl (← sharedEscape c)

/-- The items of a class for a range of code points.  Surrogates are no characters. -/
def rangeItem (low high : Nat) : ClassItem :=
  let low := if 0xd800 ≤ low ∧ low ≤ 0xdfff then 0xe000 else low
  let high := if 0xd800 ≤ high ∧ high ≤ 0xdfff then 0xd7ff else high
  .range (Char.ofNat low) (Char.ofNat high)

def literal (flags : Flags) (code : Nat) : Pattern := flags.classOf [rangeItem code code] false

/-- A member of a class, read up to a hyphen. -/
def classMember (flags : Flags) (c : Char) : Read (Nat ⊕ ClassItem) :=
  if c = '\\' then classEscape flags else return .inl c.toNat

def itemOf : Nat ⊕ ClassItem → ClassItem
  | .inl code => rangeItem code code
  | .inr item => item

/-- The items of a class up to its closing bracket, after those in `done`, the last one first. -/
def classItems (flags : Flags) : (budget : Nat) → (done : List ClassItem) → Read (List ClassItem)
  | 0, _ => fail
  | budget + 1, done => do
    let c ← next
    if c = ']' ∧ !done.isEmpty then return done.reverse
    let member ← classMember flags c
    if ← accept '-' then
      let c ← next
      if c = ']' then return (itemOf (.inl '-'.toNat) :: itemOf member :: done).reverse
      match member, ← classMember flags c with
      | .inl low, .inl high =>
        if high < low then fail
        classItems flags budget (rangeItem low high :: done)
      | _, _ => fail
    else classItems flags budget (itemOf member :: done)

def charClass (flags : Flags) : Read Pattern := do
  let negated ← accept '^'
  let items ← classItems flags ((← get).rest.length + 1) []
  return flags.classOf items negated

/-- What a quantifier may follow. -/
inductive Target
  /-- A condition on the position, which cannot be repeated. -/
  | position
  /-- A repetition, which cannot be repeated again. -/
  | repetition
  /-- Anything else. -/
  | item
deriving Repr, DecidableEq

def escape (flags : Flags) : Read (Target × Pattern) := do
  let c ← next
  let place (e : Edge) : Target × Pattern := (.position, edge e)
  match c with
  | 'A' => return place .textStart
  | 'Z' => return place .textEnd
  | 'b' => return place (.wordEdge flags.asciiOnly false)
  | 'B' => return place (.wordEdge flags.asciiOnly true)
  | '0' =>
    let more ← takeUpTo 2 isOctal
    return (.item, literal flags (Text.numberOfDigits 8 more))
  | c =>
    match kindOf? c with
    | some (kind, negated) =>
      return (.item, flags.classOf [.kind kind flags.asciiOnly negated] false)
    | none =>
      unless c.isDigit do return (.item, literal flags (← sharedEscape c))
      let second ← takeUpTo 1 Char.isDigit
      if isOctal c && second.any isOctal then
        let third ← takeUpTo 1 isOctal
        unless third.isEmpty do
          let code := Text.numberOfDigits 8 (c :: second ++ third)
          if 0o377 < code then fail
          return (.item, literal flags code)
      return (.item, ← reference flags (Text.numberOfDigits 10 (c :: second)))

end EnvAudit.Pattern.Read
