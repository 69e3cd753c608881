import EnvAudit.Calendar
import EnvAudit.Number.Binary64
import EnvAudit.Text.Quoted
import EnvAudit.Yaml.Token

/-!
# Values of documents

A value is a scalar or a collection of values.  A collection can hold itself, so a value inside may
stand for one of the collections around it; taking a member out of a collection puts the collection
in for such a place.

Collections may be nested to any depth.  An interpreter that limits how deep calls are nested does not
tell the text of a value that goes deeper.
-/

namespace EnvAudit.Yaml

/-- The greatest number of digits of a whole number that is read or written in base ten. -/
def digitLimit : Nat := 4300

/-- A value. -/
inductive Value
  | null
  | bool (b : Bool)
  | int (n : Int)
  | float (x : Binary64)
  | text (s : String)
  | bytes (bs : List UInt8)
  | date (d : Date)
  | timestamp (t : Timestamp)
  | list (items : List Value)
  | pair (first second : Value)
  | set (members : List Value)
  | map (entries : List (Value × Value))
  /-- A collection around this place: the innermost is number zero. -/
  | around (level : Nat) (isMap : Bool)
deriving Repr, Inhabited

namespace Value

mutual

/-- The value with `whole` in for the collection of a level around it. -/
def fill (whole : Value) (level : Nat) : Value → Value
  | list items => list (fillItems whole (level + 1) items)
  | pair a b => pair (fill whole level a) (fill whole level b)
  | set members => set (fillItems whole (level + 1) members)
  | map entries => map (fillEntries whole (level + 1) entries)
  | around k m => if k = level then whole else around k m
  | v => v

/-- The values of a list with `whole` in for the collection of a level around them. -/
def fillItems (whole : Value) (level : Nat) : List Value → List Value
  | [] => []
  | v :: rest => fill whole level v :: fillItems whole level rest

/-- The values of a map with `whole` in for the collection of a level around them. -/
def fillEntries (whole : Value) (level : Nat) : List (Value × Value) → List (Value × Value)
  | [] => []
  | (k, v) :: rest => (k, fill whole level v) :: fillEntries whole level rest

end

def items? (v : Value) : Option (List Value) :=
  match v with
  | list items => some (items.map (fill v 0))
  | _ => none

def isMap : Value → Bool
  | map _ => true
  | _ => false

def field? (v : Value) (name : String) : Option Value :=
  match v with
  | map entries =>
    (entries.find? fun (k, _) => match k with
      | text s => s == name
      | _ => false).map fun (_, found) => fill v 0 found
  | _ => none

/-- Whether the value counts as something: it is not null, false, zero or empty. -/
def isTruthy : Value → Bool
  | null => false
  | bool b => b
  | int n => n != 0
  | float x => !x.isZero
  | text s => s != ""
  | bytes bs => !bs.isEmpty
  | date _ | timestamp _ | pair _ _ | around _ _ => true
  | list items => !items.isEmpty
  | set members => !members.isEmpty
  | map entries => !entries.isEmpty

def truthyOr (v : Option Value) (default : Value) : Value := (v.filter isTruthy).getD default

/-- Whether the value can be a key: it is no collection. -/
def isKey : Value → Bool
  | list _ | set _ | map _ | around _ _ => false
  | _ => true

/-- The text of bytes, with escapes for those that are not printable ASCII. -/
def bytesText (bs : List UInt8) : String :=
  let chars := bs.map fun b => Char.ofNat b.toNat
  let quote := Text.Quoted.quoteFor chars
  let encode (c : Char) : List Char :=
    if c.toNat < 0x7f then Text.Quoted.encodeChar quote c
    else '\\' :: 'x' :: Text.hexDigits 2 c.toNat
  String.ofList ('b' :: quote :: (chars.flatMap encode ++ [quote]))

def boolText (b : Bool) : String := if b then "True" else "False"

mutual

def innerText : Value → String
  | null => "None"
  | bool b => boolText b
  | int n => toString n
  | float x => x.toText
  | text s => Text.Quoted.quoted s
  | bytes bs => bytesText bs
  | date d => d.toInnerText
  | timestamp t => t.toInnerText
  | list items => "[" ++ ", ".intercalate (innerTexts items) ++ "]"
  | pair a b => "(" ++ innerText a ++ ", " ++ innerText b ++ ")"
  | set members =>
    if members.isEmpty then "set()"
    else "\x7b" ++ ", ".intercalate (innerTexts members) ++ "\x7d"
  | map entries => "\x7b" ++ ", ".intercalate (entryTexts entries) ++ "\x7d"
  | around _ isMap => if isMap then "\x7b...\x7d" else "[...]"

def innerTexts : List Value → List String
  | [] => []
  | v :: rest => innerText v :: innerTexts rest

def entryTexts : List (Value × Value) → List String
  | [] => []
  | (k, v) :: rest => (innerText k ++ ": " ++ innerText v) :: entryTexts rest

end

def toText : Value → String
  | text s => s
  | date d => d.toText
  | timestamp t => t.toText
  | v => v.innerText

mutual

/-- The digits of the longest whole number in the text of a value. -/
def mostDigits : Value → Nat
  | int n => (Nat.toDigits 10 n.natAbs).length
  | list items | set items => mostDigitsOf items
  | pair a b => max (mostDigits a) (mostDigits b)
  | map entries => mostDigitsIn entries
  | _ => 0

def mostDigitsOf : List Value → Nat
  | [] => 0
  | v :: rest => max (mostDigits v) (mostDigitsOf rest)

def mostDigitsIn : List (Value × Value) → Nat
  | [] => 0
  | (k, v) :: rest => max (max (mostDigits k) (mostDigits v)) (mostDigitsIn rest)

end

/-- The text of a value, in which no whole number may be too long. -/
def shown (v : Value) : Except Fault String :=
  if digitLimit < v.mostDigits then .error (.tooLong v.mostDigits) else .ok v.toText

/-- The exact value of a number, as a quotient; infinite numbers have none. -/
def quotient? : Value → Option (Int × Nat)
  | bool b => some (if b then 1 else 0, 1)
  | int n => some (n, 1)
  | float (.finite negative m e) =>
    let (num, den) := Binary64.ratio m e
    some (Binary64.signed negative num, den)
  | _ => none

/-- Whether two keys are the same.  Numbers are compared by what they amount to, whatever their
kind, and times with a zone by the instant. -/
def sameKey (a b : Value) : Bool :=
  match a.quotient?, b.quotient? with
  | some (m, d), some (n, e) => m * e == n * d
  | none, none =>
    match a, b with
    | null, null => true
    | float x, float y => x == y
    | text s, text t => s == t
    | bytes s, bytes t => s == t
    | date d, date e => d == e
    | timestamp s, timestamp t => s.sameInstant t
    | _, _ => false
  | _, _ => false

/-- The entries with another one; for a key that is there only the value is replaced. -/
def putEntry (k v : Value) : List (Value × Value) → List (Value × Value)
  | [] => [(k, v)]
  | (key, old) :: rest =>
    if sameKey key k then (key, v) :: rest else (key, old) :: putEntry k v rest

end Value

end EnvAudit.Yaml
