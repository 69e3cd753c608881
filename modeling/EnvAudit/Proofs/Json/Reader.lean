import EnvAudit.Json

/-!
# Reading JSON

A strict reader of documents: there are no commas behind last members, no leading zeros, no raw control
characters in strings and no halves of surrogate pairs.  Fractions, exponents and truth values are not read,
since no document has them.
-/

namespace EnvAudit.Json

/-! ## Blanks -/

def isBlank (c : Char) : Bool := c == ' ' || c == '\n' || c == '\r' || c == '\t'

def skipBlanks (text : List Char) : List Char := text.dropWhile isBlank

/-! ## Numbers -/

/-- The number of which the digits are the numeral; leading zeros are in none. -/
def ofNumeral? (digits : List Char) : Option Nat :=
  let number := Nat.ofDigitChars 10 digits 0
  if Nat.toDigits 10 number = digits then some number else none

/-- A character with which a numeral would go on. -/
def extendsNumber (c : Char) : Bool := c.isDigit || c == '.' || c == 'e' || c == 'E'

def readNat? (text : List Char) : Option (Nat × List Char) :=
  let digits := text.takeWhile Char.isDigit
  let rest := text.dropWhile Char.isDigit
  if rest.head?.any extendsNumber then none else (ofNumeral? digits).map (·, rest)

def readInt? (text : List Char) : Option (Int × List Char) :=
  match text with
  | '-' :: text => (readNat? text).map fun (number, rest) => (-(number : Int), rest)
  | text => (readNat? text).map fun (number, rest) => ((number : Int), rest)

/-! ## Strings -/

/-- The UTF-16 units of a character. -/
def unitsOf (c : Char) : List Nat :=
  if c.toNat < 0x10000 then [c.toNat]
  else [0xd800 + (c.toNat - 0x10000) / 0x400, 0xdc00 + (c.toNat - 0x10000) % 0x400]

/-- The characters of UTF-16 units, if each half of a pair has its other half. -/
def ofUnits? : List Nat → Option (List Char)
  | [] => some []
  | unit :: units =>
    if unit < 0xd800 ∨ 0xdfff < unit then (ofUnits? units).map (Char.ofNat unit :: ·)
    else
      match units with
      | [] => none
      | next :: units =>
        if unit < 0xdc00 ∧ 0xdc00 ≤ next ∧ next ≤ 0xdfff then
          (ofUnits? units).map (Char.ofNat (0x10000 + (unit - 0xd800) * 0x400 + (next - 0xdc00)) :: ·)
        else none

/-- What stands behind a backslash for one character. -/
def escapes : List (Char × Char) :=
  [ ('"', '"'), ('\\', '\\'), ('/', '/'), ('n', '\n'), ('r', '\r'), ('t', '\t'), ('b', '\x08'),
    ('f', '\x0c') ]

/-- The units of a string up to its closing quotation mark, and what follows this. -/
def readUnits? : List Char → Option (List Nat × List Char)
  | [] => none
  | '"' :: rest => some ([], rest)
  | '\\' :: 'u' :: a :: b :: c :: d :: rest =>
    if [a, b, c, d].all Text.isHexDigit then
      (readUnits? rest).map fun (units, rest) => (Text.numberOfDigits 16 [a, b, c, d] :: units, rest)
    else none
  | '\\' :: c :: rest =>
    match escapes.lookup c with
    | some meant => (readUnits? rest).map fun (units, rest) => (unitsOf meant ++ units, rest)
    | none => none
  | c :: rest =>
    if c = '\\' ∨ c.toNat < 0x20 then none
    else (readUnits? rest).map fun (units, rest) => (unitsOf c ++ units, rest)

/-- A string behind its opening quotation mark. -/
def readString? (text : List Char) : Option (String × List Char) :=
  match readUnits? text with
  | some (units, rest) => (ofUnits? units).map (String.ofList ·, rest)
  | none => none

/-! ## Documents -/

section Members

variable {α : Type}

/-- Members up to a closing bracket, of which there is at least one. -/
def readMembers? (closing : Char) (member? : List Char → Option (α × List Char)) :
    (fuel : Nat) → List Char → Option (List α × List Char)
  | 0, _ => none
  | fuel + 1, text =>
    match member? text with
    | none => none
    | some (first, rest) =>
      match skipBlanks rest with
      | [] => none
      | ',' :: rest => (readMembers? closing member? fuel rest).map fun (more, rest) => (first :: more, rest)
      | c :: rest => if c = closing then some ([first], rest) else none

/-- What stands behind an opening bracket. -/
def readSequence? (closing : Char) (member? : List Char → Option (α × List Char)) (text : List Char) :
    Option (List α × List Char) :=
  match skipBlanks text with
  | [] => none
  | c :: rest => if c = closing then some ([], rest) else readMembers? closing member? text.length text

/-- A name and, behind a colon, a value. -/
def readField? (value? : List Char → Option (α × List Char)) (text : List Char) :
    Option ((String × α) × List Char) :=
  match skipBlanks text with
  | '"' :: text =>
    match readString? text with
    | none => none
    | some (name, rest) =>
      match skipBlanks rest with
      | ':' :: rest => (value? rest).map fun (value, rest) => ((name, value), rest)
      | _ => none
  | _ => none

end Members

/-- A document that is nested no deeper than the fuel lasts; there may be blanks in front of it. -/
def readValue? : (fuel : Nat) → List Char → Option (Json × List Char)
  | 0, _ => none
  | fuel + 1, text =>
    match skipBlanks text with
    | 'n' :: 'u' :: 'l' :: 'l' :: rest => some (null, rest)
    | '"' :: rest => (readString? rest).map fun (s, rest) => (str s, rest)
    | '[' :: rest => (readSequence? ']' (readValue? fuel) rest).map fun (items, rest) => (arr items, rest)
    | '\x7b' :: rest =>
      (readSequence? '\x7d' (readField? (readValue? fuel)) rest).map fun (fields, rest) => (obj fields, rest)
    | text => (readInt? text).map fun (number, rest) => (int number, rest)

/-- Reads a text that holds one document and nothing but blanks besides. -/
def read? (text : String) : Option Json :=
  match readValue? (text.toList.length + 1) text.toList with
  | some (document, rest) => if rest.all isBlank then some document else none
  | none => none

end EnvAudit.Json
