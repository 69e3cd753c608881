import EnvAudit.Text.Split

/-!
# Kinds of nodes

The kind of a node is its type in the document.  A tag names it; a scalar without one gets it from
its spelling if it is plain, and is a text otherwise.
-/

namespace EnvAudit.Yaml

/-- The kind of a node. -/
inductive Kind
  | null
  | bool
  | int
  | float
  | binary
  | timestamp
  | text
  | list
  | map
  | set
  /-- A list of maps with one entry each. -/
  | pairs
  /-- A key whose value gives more entries. -/
  | merge
  /-- The key of the plain value of a map. -/
  | value
  | unknown
deriving Repr, DecidableEq, Inhabited

namespace Kind

def tagPrefix : List Char := "tag:yaml.org,2002:".toList

/-- The kind that a known tag names after its common beginning. -/
def ofWord : String → Kind
  | "null" => null
  | "bool" => bool
  | "int" => int
  | "float" => float
  | "binary" => binary
  | "timestamp" => timestamp
  | "str" => text
  | "seq" => list
  | "map" => map
  | "set" => set
  | "omap" => pairs
  | "pairs" => pairs
  | "merge" => merge
  | "value" => value
  | _ => unknown

def ofTag (tag : List Char) : Kind :=
  match Text.dropPrefix? tagPrefix tag with
  | some word => ofWord (String.ofList word)
  | none => unknown

def isCollection : Kind → Bool
  | list | map | set | pairs => true
  | _ => false

end Kind

namespace Spelling

def truths : List String :=
  ["yes", "Yes", "YES", "true", "True", "TRUE", "on", "On", "ON"]

def falsehoods : List String :=
  ["no", "No", "NO", "false", "False", "FALSE", "off", "Off", "OFF"]

def nulls : List String := ["", "~", "null", "Null", "NULL"]

def unsigned : List Char → List Char
  | '+' :: rest => rest
  | '-' :: rest => rest
  | text => text

/-- Whether a text is not empty and all its characters pass a test. -/
def nonemptyAll (test : Char → Bool) (text : List Char) : Bool := !text.isEmpty && text.all test

def isDigitOrGap (c : Char) : Bool := c.isDigit || c == '_'

/-- Whether a text begins with a digit and goes on with digits and underscores. -/
def isDigits : List Char → Bool
  | [] => false
  | c :: rest => c.isDigit && rest.all isDigitOrGap

def isSixtieth : List Char → Bool
  | [a] => a.isDigit
  | [a, b] => '0' ≤ a && a ≤ '5' && b.isDigit
  | _ => false

/-- Whether a text is a whole number: with a base mark, in octal with a leading zero, in decimal, or
with base sixty. -/
def isInt (text : List Char) : Bool :=
  match unsigned text with
  | ['0'] => true
  | '0' :: 'b' :: rest => nonemptyAll (fun c => c == '0' || c == '1' || c == '_') rest
  | '0' :: 'x' :: rest =>
    nonemptyAll
      (fun c => c.isDigit || ('a' ≤ c && c ≤ 'f') || ('A' ≤ c && c ≤ 'F') || c == '_') rest
  | '0' :: rest => nonemptyAll (fun c => ('0' ≤ c && c ≤ '7') || c == '_') rest
  | digits =>
    match Text.splitOn ':' digits with
    | [] => false
    | first :: more => isDigits first && more.all isSixtieth

/-- Whether a text is empty or an exponent with a sign. -/
def isExponent : List Char → Bool
  | [] => true
  | e :: sign :: digits =>
    (e == 'e' || e == 'E') && (sign == '+' || sign == '-') && nonemptyAll Char.isDigit digits
  | _ => false

/-- Whether a text with a point in front is a fraction, with digits required or not. -/
def isFraction (required : Bool) (text : List Char) : Bool :=
  let digits := text.takeWhile isDigitOrGap
  (!required || (digits.head?.any Char.isDigit)) && isExponent (text.drop digits.length)

/-- Whether a text is a decimal number: it has a point, and its exponent has a sign. -/
def isFloat (text : List Char) : Bool :=
  let number := unsigned text
  let whole := number.takeWhile (· != '.')
  let fraction := (number.drop (whole.length + 1))
  let signed := number.length < text.length
  if whole.length == number.length then false
  else if [".inf", ".Inf", ".INF"].contains (String.ofList number) then true
  else if !signed && [".nan", ".NaN", ".NAN"].contains (String.ofList number) then true
  else if whole.isEmpty then !signed && isFraction true fraction
  else if isDigits whole then isFraction false fraction
  else
    match Text.splitOn ':' whole with
    | first :: part :: more =>
      isDigits first && (part :: more).all isSixtieth && fraction.all isDigitOrGap
    | _ => false

/-- Reads a number of `least` to two digits. -/
def digits? (least : Nat) (text : List Char) : Option (List Char × List Char) :=
  let run := (text.takeWhile Char.isDigit).take 2
  if run.length < least then none else some (run, text.drop run.length)

def mark? (test : Char → Bool) : List Char → Option (List Char)
  | c :: rest => if test c then some rest else none
  | [] => none

/-- The parts of a written zone. -/
structure ZoneParts where
  negative : Bool
  hours : List Char
  minutes : List Char
deriving Repr

/-- The parts of a written time. -/
structure TimeParts where
  hour : List Char
  minute : List Char
  second : List Char
  fraction : List Char
  /-- The zone, if there is one: universal time, or the distance from it. -/
  zone : Option (Option ZoneParts)
deriving Repr

/-- The parts of a written date. -/
structure DateParts where
  year : List Char
  month : List Char
  day : List Char
  time : Option TimeParts
deriving Repr

def dropSpaces (text : List Char) : List Char := text.dropWhile fun c => c == ' ' || c == '\t'

def zone? (text : List Char) : Option (Option (Option ZoneParts)) :=
  if text.isEmpty then some none
  else
    match dropSpaces text with
    | ['Z'] => some (some none)
    | sign :: rest =>
      if sign != '+' && sign != '-' then none
      else do
        let (hours, rest) ← digits? 1 rest
        if rest.isEmpty then return some (some ⟨sign == '-', hours, []⟩)
        let rest ← mark? (· == ':') rest
        let (minutes, rest) ← digits? 2 rest
        if rest.isEmpty then return some (some ⟨sign == '-', hours, minutes⟩) else none
    | [] => none

def time? (text : List Char) : Option TimeParts := do
  let (hour, rest) ← digits? 1 text
  let (minute, rest) ← digits? 2 (← mark? (· == ':') rest)
  let (second, rest) ← digits? 2 (← mark? (· == ':') rest)
  let (fraction, rest) := match rest with
    | '.' :: rest => (rest.takeWhile Char.isDigit, rest.dropWhile Char.isDigit)
    | _ => ([], rest)
  let zone ← zone? rest
  return { hour, minute, second, fraction, zone }

/-- Reads a date, with a time or without.  Month and day have one or two digits. -/
def date? (text : List Char) : Option DateParts := do
  let year := (text.takeWhile Char.isDigit).take 4
  if year.length < 4 then none
  let (month, rest) ← digits? 1 (← mark? (· == '-') (text.drop 4))
  let (day, rest) ← digits? 1 (← mark? (· == '-') rest)
  match rest with
  | [] => return { year, month, day, time := none }
  | c :: more =>
    let start ← if c == 'T' || c == 't' then some more
      else if c == ' ' || c == '\t' then some (dropSpaces more) else none
    return { year, month, day, time := some (← time? start) }

/-- Whether a text is a date: a time may follow, and without one month and day have two digits. -/
def isTimestamp (text : List Char) : Bool :=
  match date? text with
  | none => false
  | some parts => parts.time.isSome || (parts.month.length == 2 && parts.day.length == 2)

def kind (text : List Char) : Kind :=
  let word := String.ofList text
  if truths.contains word || falsehoods.contains word then .bool
  else if isFloat text then .float
  else if isInt text then .int
  else if word == "<<" then .merge
  else if nulls.contains word then .null
  else if isTimestamp text then .timestamp
  else if word == "=" then .value
  else if ["!", "&", "*"].contains word then .unknown
  else .text

end Spelling

end EnvAudit.Yaml
