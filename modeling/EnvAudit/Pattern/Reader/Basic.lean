import EnvAudit.Pattern.Compiler
import EnvAudit.Pattern.Flags
import EnvAudit.Pattern.Width
import EnvAudit.Text.Hex

/-!
# Steps of reading a pattern

What is known while a pattern is read, and the steps that take single characters, numbers and
references to groups.
-/

namespace EnvAudit.Pattern

namespace Read

/-- What is known while a pattern is read. -/
structure State where
  rest : List Char
  flags : Flags
  /-- The widths of the groups so far, the last one first; an open group has none. -/
  groups : List (Option Width) := []
  /-- The numbers of the named groups. -/
  names : List (List Char × Nat) := []
  /-- Inside a look behind, the number of groups in front of it. -/
  behindFrom : Option Nat := none
  /-- The groups that conditions ask for by number. -/
  asked : List Nat := []
  /-- The character of a name. -/
  named : (name : String) → Option Char

end Read

abbrev Read := StateT Read.State (Except ReadError)

namespace Read

def fail {α : Type} : Read α := throw .malformed

/-- The next character, which stays. -/
def peek? : Read (Option Char) := return (← get).rest.head?

def next : Read Char := do
  match (← get).rest with
  | [] => fail
  | c :: rest => modify ({ · with rest }); return c

/-- Takes the next character if it is the given one. -/
def accept (c : Char) : Read Bool := do
  if (← peek?) == some c then let _ ← next; return true else return false

/-- Takes the next character, which must be the given one. -/
def expect (c : Char) : Read Unit := do
  unless ← accept c do fail

/-- Takes characters that pass the test, at most `most`. -/
def takeUpTo (most : Nat) (test : Char → Bool) : Read (List Char) := do
  let text := ((← get).rest.take most).takeWhile test
  modify fun s => { s with rest := s.rest.drop text.length }
  return text

/-- Takes all characters in front of `stop`, and `stop` itself. -/
def takeUntil (stop : Char) : Read (List Char) := do
  let text := (← get).rest.takeWhile (· != stop)
  modify fun s => { s with rest := s.rest.drop text.length }
  expect stop
  return text

/-- The text after the end of a comment, in which a backslash hides the next character.  With
`mayEnd`, the end of the text ends the comment too. -/
def skipComment (stop : Char) (mayEnd : Bool) : List Char → Option (List Char)
  | [] => if mayEnd then some [] else none
  | ['\\'] => none
  | '\\' :: _ :: rest => skipComment stop mayEnd rest
  | c :: rest => if c = stop then some rest else skipComment stop mayEnd rest

/-- Takes exactly `count` hexadecimal digits and gives their value. -/
def hexNumber (count : Nat) : Read Nat := do
  let digits ← takeUpTo count Text.isHexDigit
  if digits.length < count then fail
  return Text.numberOfDigits 16 digits

def isOctal (c : Char) : Bool := '0' ≤ c && c ≤ '7'

/-- The number of groups so far, with the whole match counted. -/
def groupCount : Read Nat := return (← get).groups.length + 1

def groupWidth? (s : State) (index : Nat) : Option Width :=
  if index = 0 ∨ s.groups.length < index then none
  else (s.groups[s.groups.length - index]?).join

/-- The width of a pattern under the groups that are closed. -/
def widthOf (p : Pattern) : Read Width := do
  let s ← get
  return p.width fun index => (groupWidth? s index).getD ⟨0, none⟩

/-- Fails unless the group may be referred to at this place of a look behind. -/
def checkBehind (index : Nat) : Read Unit := do
  let s ← get
  match s.behindFrom with
  | none => return
  | some bound =>
    if (groupWidth? s index).isNone then fail
    if bound ≤ index then fail

def reference (flags : Flags) (index : Nat) : Read Pattern := do
  if (groupWidth? (← get) index).isNone then fail
  checkBehind index
  return again index flags.caseRule

end Read

end EnvAudit.Pattern
