/-!
# Dates and times

Days of the civil calendar and times of day, with the check that they exist and their text.
-/

namespace EnvAudit

/-- A day. -/
structure Date where
  year : Nat
  month : Nat
  day : Nat
deriving Repr, DecidableEq, Inhabited

/-- A day and a time, and the offset from universal time in minutes if it is known. -/
structure Timestamp where
  date : Date
  hour : Nat
  minute : Nat
  second : Nat
  microsecond : Nat
  offset : Option Int
deriving Repr, DecidableEq, Inhabited

/-- Why a day or time does not exist. -/
inductive CalendarError
  | year (value : Nat)
  | month
  | day
  | hour
  | minute
  | second
  | offset (minutes : Int)
deriving Repr, DecidableEq

namespace Calendar

/-- A number with at least `width` digits. -/
def padded (width : Nat) (number : Nat) : String :=
  let digits := Nat.toDigits 10 number
  String.ofList (List.replicate (width - digits.length) '0' ++ digits)

/-- A span of time, given in minutes, by days and seconds. -/
def spanText (minutes : Int) : String :=
  let days := minutes / 1440
  let seconds := minutes % 1440 * 60
  let parts :=
    (if days = 0 then [] else [s!"days={days}"])
      ++ (if seconds = 0 then [] else [s!"seconds={seconds}"])
  let inner := if parts.isEmpty then "0" else ", ".intercalate parts
  s!"datetime.timedelta({inner})"

end Calendar

def CalendarError.message : CalendarError → String
  | year value => s!"year {value} is out of range"
  | month => "month must be in 1..12"
  | day => "day is out of range for month"
  | hour => "hour must be in 0..23"
  | minute => "minute must be in 0..59"
  | second => "second must be in 0..59"
  | offset minutes =>
    "offset must be a timedelta strictly between -timedelta(hours=24) and timedelta(hours=24), not "
      ++ Calendar.spanText minutes ++ "."

namespace Date

def isLeap (year : Nat) : Bool := year % 4 == 0 && (year % 100 != 0 || year % 400 == 0)

def daysIn (year month : Nat) : Nat :=
  if month = 2 then if isLeap year then 29 else 28
  else if [4, 6, 9, 11].contains month then 30
  else 31

def check (d : Date) : Except CalendarError Date :=
  if d.year = 0 ∨ 9999 < d.year then .error (.year d.year)
  else if d.month = 0 ∨ 12 < d.month then .error .month
  else if d.day = 0 ∨ daysIn d.year d.month < d.day then .error .day
  else .ok d

def toText (d : Date) : String :=
  s!"{Calendar.padded 4 d.year}-{Calendar.padded 2 d.month}-{Calendar.padded 2 d.day}"

/-- A day as it stands inside a list. -/
def toInnerText (d : Date) : String := s!"datetime.date({d.year}, {d.month}, {d.day})"

end Date

namespace Timestamp

def check (t : Timestamp) : Except CalendarError Timestamp := do
  match t.offset with
  | some minutes => if 1440 ≤ minutes.natAbs then throw (.offset minutes)
  | none => pure ()
  let _ ← t.date.check
  if 23 < t.hour then throw .hour
  if 59 < t.minute then throw .minute
  if 59 < t.second then throw .second
  return t

/-- The number of days from the first day of the first year. -/
def dayNumber (d : Date) : Nat :=
  let years := d.year - 1
  let months := (List.range (d.month - 1)).map fun m => Date.daysIn d.year (m + 1)
  years * 365 + years / 4 - years / 100 + years / 400 + months.foldl (· + ·) 0 + d.day

/-- The microseconds from the first day of the first year, in the zone of the timestamp. -/
def localInstant (t : Timestamp) : Int :=
  (((dayNumber t.date * 24 + t.hour) * 60 + t.minute) * 60 + t.second : Nat) * 1000000
    + (t.microsecond : Int)

/-- Whether two timestamps are the same time.  One with a zone and one without never are. -/
def sameInstant (s t : Timestamp) : Bool :=
  match s.offset, t.offset with
  | none, none => s.localInstant == t.localInstant
  | some a, some b =>
    s.localInstant - a * 60000000 == t.localInstant - b * 60000000
  | _, _ => false

def offsetText (minutes : Int) : String :=
  let sign := if minutes < 0 then "-" else "+"
  sign ++ Calendar.padded 2 (minutes.natAbs / 60) ++ ":" ++ Calendar.padded 2 (minutes.natAbs % 60)

def toText (t : Timestamp) : String :=
  let time := ":".intercalate ([t.hour, t.minute, t.second].map (Calendar.padded 2))
  let fraction := if t.microsecond = 0 then "" else "." ++ Calendar.padded 6 t.microsecond
  t.date.toText ++ " " ++ time ++ fraction ++ (t.offset.map offsetText).getD ""

/-- A timestamp as it stands inside a list. -/
def toInnerText (t : Timestamp) : String :=
  let seconds :=
    if t.microsecond ≠ 0 then [t.second, t.microsecond]
    else if t.second ≠ 0 then [t.second]
    else []
  let numbers := [t.date.year, t.date.month, t.date.day, t.hour, t.minute] ++ seconds
  let zone := match t.offset with
    | none => ""
    | some 0 => ", tzinfo=datetime.timezone.utc"
    | some minutes => s!", tzinfo=datetime.timezone({Calendar.spanText minutes})"
  "datetime.datetime(" ++ ", ".intercalate (numbers.map toString) ++ zone ++ ")"

end Timestamp

end EnvAudit
