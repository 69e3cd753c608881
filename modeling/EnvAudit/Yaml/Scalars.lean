import EnvAudit.Number.Numeral
import EnvAudit.Text.Base64
import EnvAudit.Yaml.Kind
import EnvAudit.Yaml.Token
import EnvAudit.Yaml.Value

/-!
# Values of scalars

What a scalar of each kind stands for.  A tag can give a kind to any text, so every kind has its
own fault.
-/

namespace EnvAudit.Yaml.Scalar

def withoutGaps (text : List Char) : List Char := text.filter (· != '_')

def integerIn (base : Nat) (text : List Char) : Except Fault Int :=
  match Numeral.integer? base text with
  | none => .error (.integer base text)
  | some n => if base = 10 ∧ digitLimit < text.length then .error (.tooLong text.length) else .ok n

/-- The numbers of a text in base sixty, the last one first, each with its weight. -/
def sixtieths {α : Type} (read : List Char → Except Fault α) (text : List Char) :
    Except Fault (List (α × Nat)) := do
  let parts ← (Text.splitOn ':' text).mapM read
  return parts.reverse.zipIdx.map fun (part, i) => (part, Nat.pow 60 i)

/-- Splits off the sign of a number that has something to it. -/
def splitSign (text : List Char) : Except Fault (Bool × List Char) :=
  match Numeral.splitSign text with
  | (_, []) => .error .noDigits
  | found => .ok found

/-- A whole number: with a base mark, in octal with a leading zero, in decimal, or in base sixty. -/
def int (text : List Char) : Except Fault Value := do
  let (negative, digits) ← splitSign (withoutGaps text)
  let n : Int ← match digits with
    | ['0'] => pure 0
    | '0' :: 'b' :: rest => integerIn 2 rest
    | '0' :: 'x' :: rest => integerIn 16 rest
    | '0' :: _ => integerIn 8 digits
    | _ =>
      if digits.contains ':' then do
        let parts ← sixtieths (integerIn 10) digits
        pure (parts.foldl (fun sum (part, weight) => sum + part * weight) 0)
      else integerIn 10 digits
  return .int (if negative then -n else n)

def decimal (text : List Char) : Except Fault Binary64 :=
  match Numeral.decimal? text with
  | some x => .ok x
  | none => .error (.decimal text)

def float (text : List Char) : Except Fault Value := do
  let (negative, digits) ← splitSign (Text.lower (withoutGaps text))
  let x ← if digits = ".inf".toList then pure (.infinite false)
    else if digits = ".nan".toList then pure .nan
    else if digits.contains ':' then do
      let parts ← sixtieths decimal digits
      let zero : Binary64 := .ofDecimal false 0 0
      pure (parts.foldl (fun sum (part, weight) => sum.add (part.scale weight)) zero)
    else decimal digits
  return .float (if negative then x.negate else x)

def bool (text : List Char) : Except Fault Value :=
  let word := String.ofList (Text.lower text)
  if ["yes", "true", "on"].contains word then .ok (.bool true)
  else if ["no", "false", "off"].contains word then .ok (.bool false)
  else .error (.truth (Text.lower text))

def number (digits : List Char) : Nat := Text.numberOfDigits 10 digits

def microseconds (fraction : List Char) : Nat :=
  let digits := fraction.take 6
  number (digits ++ List.replicate (6 - digits.length) '0')

def offset : Option Spelling.ZoneParts → Int
  | none => 0
  | some zone =>
    let minutes : Int := number zone.hours * 60 + number zone.minutes
    if zone.negative then -minutes else minutes

def timestamp (text : List Char) : Except Fault Value :=
  match Spelling.date? text with
  | none => .error .timestamp
  | some parts =>
    let date : Date := ⟨number parts.year, number parts.month, number parts.day⟩
    match parts.time with
    | none => (date.check.map .date).mapError .calendar
    | some time =>
      let t : Timestamp :=
        { date, hour := number time.hour, minute := number time.minute,
          second := number time.second, microsecond := microseconds time.fraction,
          offset := time.zone.map offset }
      (t.check.map .timestamp).mapError .calendar

def binary (text : List Char) : Except Fault Value :=
  if text.any fun c => 0x7f < c.toNat then .error .malformed
  else
    match Text.Base64.decode? text with
    | some bytes => .ok (.bytes bytes)
    | none => .error .malformed

def value (kind : Kind) (text : List Char) : Except Fault Value :=
  match kind with
  | .null => .ok .null
  | .bool => bool text
  | .int => int text
  | .float => float text
  | .binary => binary text
  | .timestamp => timestamp text
  | .text => .ok (.text (String.ofList text))
  | .list | .map | .set | .pairs | .merge | .value | .unknown => .error .malformed

end EnvAudit.Yaml.Scalar
