/-!
# Binary floating-point numbers

Numbers of 53 significant bits as an exact mantissa and exponent.  A quotient is rounded to the
nearest such number, and a number is written with the fewest decimal digits that read back as it.
Everything is computed on natural numbers.
-/

namespace EnvAudit

/-- A binary number: a finite one is its mantissa times a power of two. -/
inductive Binary64
  | finite (negative : Bool) (mantissa : Nat) (exponent : Int)
  | infinite (negative : Bool)
  | nan
deriving Repr, DecidableEq, Inhabited

namespace Binary64

def minExponent : Int := -1074

def maxExponent : Int := 971

/-- The quotient of two numbers, rounded to nearest; a half goes to the even neighbour. -/
def roundQuotient (num den : Nat) : Nat :=
  let q := num / den
  let r := 2 * (num % den)
  if r < den ∨ (r = den ∧ q % 2 = 0) then q else q + 1

/-- Numerator and denominator of a quotient after division by a power of two. -/
def unscale (num den : Nat) (exponent : Int) : Nat × Nat :=
  let factor := Nat.pow 2 exponent.natAbs
  if exponent < 0 then (num * factor, den) else (num, den * factor)

/-- The exponent at which a quotient has a mantissa of 53 bits, or the least exponent. -/
def exponentOf (num den : Nat) : Int :=
  let guess : Int := (num.log2 : Int) - (den.log2 : Int) - 52
  let (n, d) := unscale num den guess
  let exact := if n / d < Nat.pow 2 52 then guess - 1 else guess
  max exact minExponent

/-- The number nearest to a quotient. -/
def ofRatio (negative : Bool) (num den : Nat) : Binary64 :=
  if num = 0 then finite negative 0 minExponent
  else
    let exponent := exponentOf num den
    let (n, d) := unscale num den exponent
    let mantissa := roundQuotient n d
    let (mantissa, exponent) :=
      if mantissa = Nat.pow 2 53 then (Nat.pow 2 52, exponent + 1) else (mantissa, exponent)
    if maxExponent < exponent then infinite negative else finite negative mantissa exponent

/-- The power of ten beyond which a decimal is infinite, and below whose inverse it is zero. -/
def decimalRange : Nat := 400

/-- The number nearest to a decimal, given by its digits and a power of ten. -/
def ofDecimal (negative : Bool) (digits : Nat) (power : Int) : Binary64 :=
  let size : Int := power + (Nat.toDigits 10 digits).length
  if digits = 0 ∨ size < -decimalRange then finite negative 0 minExponent
  else if decimalRange < size then infinite negative
  else if power < 0 then ofRatio negative digits (Nat.pow 10 power.natAbs)
  else ofRatio negative (digits * Nat.pow 10 power.natAbs) 1

/-- The exact value of a mantissa and exponent as a quotient. -/
def ratio (mantissa : Nat) (exponent : Int) : Nat × Nat :=
  let factor := Nat.pow 2 exponent.natAbs
  if exponent < 0 then (mantissa, factor) else (mantissa * factor, 1)

def signed (negative : Bool) (n : Nat) : Int := if negative then -n else n

def add : Binary64 → Binary64 → Binary64
  | finite s m e, finite t n f =>
    let (a, b) := ratio m e
    let (c, d) := ratio n f
    let sum := signed s (a * d) + signed t (c * b)
    ofRatio (if sum = 0 then s && t else sum < 0) sum.natAbs (b * d)
  | infinite s, infinite t => if s = t then infinite s else nan
  | nan, _ | _, nan => nan
  | infinite s, finite .. => infinite s
  | finite .., infinite t => infinite t

/-- A number times a positive whole number. -/
def scale (factor : Nat) : Binary64 → Binary64
  | finite s m e =>
    let (a, b) := ratio m e
    ofRatio s (a * factor) b
  | x => x

def negate : Binary64 → Binary64
  | finite negative m e => finite (!negative) m e
  | infinite negative => infinite (!negative)
  | nan => nan

def isZero : Binary64 → Bool
  | finite _ m _ => m == 0
  | _ => false

/-- The number of decimal digits in front of the point; for a number below one, minus the number of
zeros behind the point. -/
def pointOf (num den : Nat) : Int :=
  let guess : Int := ((Nat.toDigits 10 num).length : Int) - ((Nat.toDigits 10 den).length : Int)
  let reaches (power : Int) : Bool :=
    let factor := Nat.pow 10 power.natAbs
    if power < 0 then den ≤ num * factor else den * factor ≤ num
  if reaches guess then guess + 1 else guess

/-- The decimals of `count` digits around a quotient that read back as the given number, as pairs
of digits and power of ten, the nearer first. -/
def readBack (target : Binary64) (num den : Nat) (point : Int) (count : Nat) :
    Option (Nat × Int) :=
  let power := point - count
  let factor := Nat.pow 10 power.natAbs
  let (n, d) := if power < 0 then (num * factor, den) else (num, den * factor)
  let below := n / d
  let nearest := roundQuotient n d
  let other := if nearest = below then below + 1 else below
  [nearest, other].findSome? fun digits =>
    if ofDecimal false digits power == target then some (digits, power) else none

/-- The fewest decimal digits that read back as a positive number, with their power of ten. -/
def shortest (mantissa : Nat) (exponent : Int) : Nat × Int :=
  let (num, den) := ratio mantissa exponent
  let point := pointOf num den
  ((List.range 17).findSome? fun i =>
    readBack (finite false mantissa exponent) num den point (i + 1)).getD (mantissa, exponent)

/-- Digits without the zeros at their end, and how many those are. -/
def stripZeros (digits : List Char) : List Char × Nat :=
  let kept := (digits.reverse.dropWhile (· == '0')).reverse
  (kept, digits.length - kept.length)

/-- A positive number in decimal.  Up to sixteen digits stand in front of the point and up to four
zeros behind it; other numbers have an exponent of at least two digits. -/
def positiveText (mantissa : Nat) (exponent : Int) : String :=
  let (digits, power) := shortest mantissa exponent
  let (ds, zeros) := stripZeros (Nat.toDigits 10 digits)
  let point : Int := ds.length + zeros + power
  if -4 < point ∧ point ≤ 16 then
    let text :=
      if point ≤ 0 then '0' :: '.' :: (List.replicate point.natAbs '0' ++ ds)
      else
        let front := ds.take point.toNat ++ List.replicate (point.toNat - ds.length) '0'
        let back := ds.drop point.toNat
        front ++ '.' :: (if back.isEmpty then ['0'] else back)
    String.ofList text
  else
    let exponent := point - 1
    let digits := Nat.toDigits 10 exponent.natAbs
    let digits := if digits.length < 2 then '0' :: digits else digits
    let sign := if exponent < 0 then '-' else '+'
    let head := match ds with
      | [] => []
      | [d] => [d]
      | d :: rest => d :: '.' :: rest
    String.ofList (head ++ 'e' :: sign :: digits)

def toText : Binary64 → String
  | nan => "nan"
  | infinite negative => if negative then "-inf" else "inf"
  | finite negative mantissa exponent =>
    let text := if mantissa = 0 then "0.0" else positiveText mantissa exponent
    if negative then "-" ++ text else text

end Binary64

end EnvAudit
