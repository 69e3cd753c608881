import EnvAudit.Number.Numeral
import EnvAudit.Pattern.Reader.Count
import EnvAudit.Pattern.Reader.Escape
import EnvAudit.Text.NameChar
import EnvAudit.Text.Split

/-!
# Reading patterns

Patterns are written in the usual notation of backtracking expressions: classes in brackets, groups
with numbers or names, the quantifiers `*`, `+`, `?` and counts in braces with their lazy and
possessive forms, looking around, references, conditions, atomic groups, comments and inline flags.
-/

namespace EnvAudit.Pattern

namespace Read

/-- Patterns one after another; the last one stands first. -/
def sequence (done : List (Target × Pattern)) : Pattern :=
  match done with
  | [] => empty
  | (_, last) :: front => front.foldl (fun rest item => seq item.2 rest) last

/-- Flags up to one of the characters in `stops`, which is taken too. -/
def flagLetters (stops : List Char) : (budget : Nat) → (flags : Flags) → Read (Flags × Char)
  | 0, _ => fail
  | budget + 1, flags => do
    let c ← next
    if stops.contains c then return (flags, c)
    match flags.turnOn? c with
    | none => fail
    | some flags =>
      if flags.asciiOnly && flags.allScripts then fail
      flagLetters stops budget flags

/-- Inline flags, of which `first` is the first character: those turned on, those turned off, and
whether they hold for the whole pattern. -/
def inlineFlags (first : Char) : Read (Flags × Flags × Bool) := do
  let budget := (← get).rest.length + 1
  let off (added : Flags) : Read (Flags × Flags × Bool) := do
    let (removed, _) ← flagLetters [':'] budget {}
    let scripts := removed.asciiOnly || removed.allScripts || removed.noRepeats
    if removed == {} || scripts || added.overlaps removed then fail
    return (added, removed, false)
  if first = '-' then off {}
  else
    match ({} : Flags).turnOn? first with
    | none => fail
    | some flags =>
      let (added, stop) ← flagLetters [')', '-', ':'] budget flags
      if stop = ')' then return (added, {}, true)
      if added.noRepeats then fail
      if stop = '-' then off added else return (added, {}, false)

def openGroup (name : Option (List Char)) : Read Nat := do
  let index ← groupCount
  match name with
  | none => pure ()
  | some name =>
    if ((← get).names.lookup name).isSome then fail
    modify fun s => { s with names := (name, index) :: s.names }
  modify fun s => { s with groups := none :: s.groups }
  return index

def closeGroup (index : Nat) (body : Pattern) : Read Unit := do
  let width ← widthOf body
  modify fun s => { s with groups := s.groups.set (s.groups.length - index) (some width) }

def behindLimit : Nat := 4294967295

/-- A look behind, whose body must have a fixed width. -/
def lookBehind (wanted : Bool) (body : Pattern) : Read Pattern := do
  let width ← widthOf body
  if width.most != some width.least || behindLimit < width.least then fail
  return behind wanted width.least body

/-- The number that a text is.  Blanks may stand around it, a plus sign in front of it and single
underscores between its digits, which can be of any script. -/
def groupNumber? (text : List Char) : Option Nat :=
  let (negative, digits) := Numeral.splitSign (Text.trim text)
  let runs := Text.splitOn '_' digits
  if negative || runs.any (·.isEmpty) then none else Numeral.natural? 10 runs.flatten

/-- The number of the group that a condition asks for. -/
def conditionGroup : Read Nat := do
  let name ← takeUntil ')'
  if Text.isName name then
    match (← get).names.lookup name with
    | none => fail
    | some index => return index
  else
    match groupNumber? name with
    | none | some 0 => fail
    | some index =>
      modify fun s => { s with asked := index :: s.asked }
      return index

mutual

/-- The branches of a choice up to a closing parenthesis or the end. -/
def branches (flags : Flags) (top : Bool) : (budget : Nat) → Read Pattern
  | 0 => fail
  | budget + 1 => do
    let first ← items flags top budget []
    if ← accept '|' then
      let whole := (← get).flags
      let flags := if top then whole else flags
      return alt first (← branchesAfter flags budget)
    return first

def branchesAfter (flags : Flags) : (budget : Nat) → Read Pattern
  | 0 => fail
  | budget + 1 => do
    let first ← items flags false budget []
    if ← accept '|' then return alt first (← branchesAfter flags budget)
    return first

/-- The items of a sequence after those in `done`, the last one first.  With `leading`, flags for
the whole pattern may come as long as there are no items. -/
def items (flags : Flags) (leading : Bool) : (budget : Nat) → List (Target × Pattern) → Read Pattern
  | 0, _ => fail
  | budget + 1, done => do
    match ← peek? with
    | none | some '|' | some ')' => return sequence done
    | some c =>
      let _ ← next
      if flags.verbose && (" \t\n\r\x0b\x0c".toList.contains c) then
        items flags leading budget done
      else if flags.verbose && c == '#' then
        match skipComment '\n' true (← get).rest with
        | none => fail
        | some rest =>
          modify ({ · with rest })
          items flags leading budget done
      else
        match c with
        | '\\' =>
          let item ← escape flags
          items flags leading budget (item :: done)
        | '[' =>
          let p ← charClass flags
          items flags leading budget ((.item, p) :: done)
        | '.' =>
          let k := if flags.dotAll then CharClass.anyChar else CharClass.notNewline
          items flags leading budget ((.item, one k) :: done)
        | '^' =>
          let place := if flags.multiline then Edge.lineStart else .textStart
          items flags leading budget ((.position, edge place) :: done)
        | '$' =>
          let place := if flags.multiline then Edge.lineEnd else .lastLineEnd
          items flags leading budget ((.position, edge place) :: done)
        | '(' =>
          match ← parenthesis flags leading budget done with
          | .inl flags => items flags leading budget done
          | .inr done => items flags leading budget done
        | c =>
          if c == '*' || c == '+' || c == '?' || c == '\x7b' then
            match ← bounds? c with
            | none => items flags leading budget ((.item, literal flags c.toNat) :: done)
            | some (least, most) =>
              match done with
              | (.item, p) :: front =>
                if flags.noRepeats then fail
                let p := repetition p least most (← greed)
                items flags leading budget ((.repetition, p) :: front)
              | _ => fail
          else items flags leading budget ((.item, literal flags c.toNat) :: done)

/-- What an opening parenthesis begins: new settings for the rest of the pattern, or the items with
one more. -/
def parenthesis (flags : Flags) (leading : Bool) :
    (budget : Nat) → List (Target × Pattern) → Read (Flags ⊕ List (Target × Pattern))
  | 0, _ => fail
  | budget + 1, done => do
    let capture (name : Option (List Char)) : Read (Flags ⊕ List (Target × Pattern)) := do
      let index ← openGroup name
      let body ← branches flags false budget
      expect ')'
      closeGroup index body
      return .inr ((.item, group index body) :: done)
    let around (wanted : Bool) : Read (Flags ⊕ List (Target × Pattern)) := do
      let body ← branches flags false budget
      expect ')'
      return .inr ((.item, ahead wanted body) :: done)
    unless ← accept '?' do return ← capture none
    match ← next with
    | 'P' =>
      match ← next with
      | '<' =>
        let name ← takeUntil '>'
        unless Text.isName name do fail
        capture (some name)
      | '=' =>
        let name ← takeUntil ')'
        unless Text.isName name do fail
        match (← get).names.lookup name with
        | none => fail
        | some index => return .inr ((.item, ← reference flags index) :: done)
      | _ => fail
    | ':' =>
      let body ← branches flags false budget
      expect ')'
      return .inr ((.item, body) :: done)
    | '>' =>
      let body ← branches flags false budget
      expect ')'
      return .inr ((.item, atomic body) :: done)
    | '#' =>
      match skipComment ')' false (← get).rest with
      | none => fail
      | some rest =>
        modify ({ · with rest })
        return .inr done
    | '=' => around true
    | '!' => around false
    | '<' =>
      let sign ← next
      unless sign = '=' ∨ sign = '!' do fail
      let outer := (← get).behindFrom
      let inner := outer.getD (← groupCount)
      modify ({ · with behindFrom := some inner })
      let body ← branches flags false budget
      modify ({ · with behindFrom := outer })
      expect ')'
      return .inr ((.item, ← lookBehind (sign = '=') body) :: done)
    | '(' =>
      let index ← conditionGroup
      checkBehind index
      let yes ← items flags false budget []
      let no ← do if ← accept '|' then items flags false budget [] else pure empty
      expect ')'
      return .inr ((.item, ifGroup index yes no) :: done)
    | c =>
      let (added, removed, whole) ← inlineFlags c
      if whole then
        unless leading && done.isEmpty do fail
        let flags := (← get).flags.union added
        modify ({ · with flags })
        return .inl flags
      let body ← branches (flags.change added removed) false budget
      expect ')'
      return .inr ((.item, body) :: done)

end

def pattern (budget : Nat) : Read Pattern := do
  let p ← branches (← get).flags true budget
  let s ← get
  if s.flags.asciiOnly && s.flags.allScripts then throw .mixedScripts
  unless s.rest.isEmpty do fail
  if s.asked.any (s.groups.length < ·) then fail
  return p

end Read

/-- Reads a pattern; `ignoreCase` is the setting it starts with, and `named` knows characters by
name. -/
def parse (named : (name : String) → Option Char) (text : String) (ignoreCase : Bool) :
    Except ReadError Parsed :=
  let chars := text.toList
  let start : Read.State := { rest := chars, flags := { ignoreCase }, named }
  match (Read.pattern (4 * chars.length + 4)).run start with
  | .ok (pattern, state) => .ok { pattern, ignoreCase := state.flags.ignoreCase }
  | .error e => .error e

end EnvAudit.Pattern
