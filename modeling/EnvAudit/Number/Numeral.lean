import EnvAudit.Number.Binary64
import EnvAudit.Text.Blank
import EnvAudit.Text.Case
import EnvAudit.Text.Hex
import EnvAudit.Text.Word

/-!
# Written numbers

Whole numbers in a given base and decimal numbers.  Blank characters around a number are dropped,
and a digit can be of any script.
-/

namespace EnvAudit.Numeral

def digit? (base : Nat) (c : Char) : Option Nat :=
  ((Text.digitValue? c).orElse fun _ =>
    if c.isAlpha then some (c.toLower.toNat - 'a'.toNat + 10) else none).filter (· < base)

/-- The value of a run of digits, which must not be empty. -/
def natural? (base : Nat) (digits : List Char) : Option Nat :=
  if digits.isEmpty then none
  else digits.foldlM (fun n c => (digit? base c).map (n * base + ·)) 0

/-- Splits off a sign; tells whether it is a minus. -/
def splitSign : List Char → Bool × List Char
  | '-' :: rest => (true, rest)
  | '+' :: rest => (false, rest)
  | text => (false, text)

/-- Drops the mark of a base in front of digits. -/
def dropBaseMark (base : Nat) (text : List Char) : List Char :=
  match base, text with
  | 2, '0' :: m :: rest => if m == 'b' || m == 'B' then rest else text
  | 8, '0' :: m :: rest => if m == 'o' || m == 'O' then rest else text
  | 16, '0' :: m :: rest => if m == 'x' || m == 'X' then rest else text
  | _, _ => text

/-- The whole number that a text is in a base. -/
def integer? (base : Nat) (text : List Char) : Option Int :=
  let (negative, digits) := splitSign (Text.trim text)
  (natural? base (dropBaseMark base digits)).map fun n => if negative then -n else n

/-- Splits a decimal number into whole part, fraction and exponent. -/
def decimalParts (text : List Char) : List Char × List Char × Option (List Char) :=
  let isDigit (c : Char) : Bool := (digit? 10 c).isSome
  let whole := text.takeWhile isDigit
  let rest := text.drop whole.length
  let (fraction, rest) := match rest with
    | '.' :: rest => (rest.takeWhile isDigit, rest.dropWhile isDigit)
    | _ => ([], rest)
  match rest with
  | [] => (whole, fraction, none)
  | e :: rest => (whole, fraction, some (if e.toLower = 'e' then rest else ['?']))

def magnitude? (text : List Char) : Option Binary64 :=
  let word := String.ofList (Text.lower text)
  if word == "inf" || word == "infinity" then some (.infinite false)
  else if word == "nan" then some .nan
  else do
    let (whole, fraction, exponent) := decimalParts text
    let digits ← natural? 10 (whole ++ fraction)
    let exponent ← match exponent with
      | none => some 0
      | some e =>
        let (negative, e) := splitSign e
        (natural? 10 e).map fun n => if negative then -(n : Int) else n
    return .ofDecimal false digits (exponent - fraction.length)

def decimal? (text : List Char) : Option Binary64 :=
  let (negative, rest) := splitSign (Text.trim text)
  (magnitude? rest).map fun x => if negative then x.negate else x

end EnvAudit.Numeral
