import EnvAudit.Pattern.Basic

/-!
# Flags

The settings under which the parts of a pattern are read.  Inline flags change them for a group or
for the whole pattern.
-/

namespace EnvAudit.Pattern

/-- The settings that inline flags change. -/
structure Flags where
  ignoreCase : Bool := false
  asciiOnly : Bool := false
  allScripts : Bool := false
  multiline : Bool := false
  dotAll : Bool := false
  verbose : Bool := false
  noRepeats : Bool := false
deriving Repr, DecidableEq, Inhabited

namespace Flags

def caseRule (f : Flags) : CaseRule :=
  if f.ignoreCase then if f.asciiOnly then .ascii else .unicode else .exact

def classOf (f : Flags) (items : List ClassItem) (negated : Bool) : Pattern :=
  one { items, negated, caseRule := f.caseRule }

/-- Turns on one flag; `none` if the letter is no flag. -/
def turnOn? (f : Flags) : Char → Option Flags
  | 'i' => some { f with ignoreCase := true }
  | 'm' => some { f with multiline := true }
  | 's' => some { f with dotAll := true }
  | 'x' => some { f with verbose := true }
  | 'a' => some { f with asciiOnly := true }
  | 'u' => some { f with allScripts := true }
  | 't' => some { f with noRepeats := true }
  | _ => none

/-- The settings with those of `added` turned on and those of `removed` turned off.  A choice of
scripts replaces the one in force. -/
def change (f added removed : Flags) : Flags where
  ignoreCase := (f.ignoreCase || added.ignoreCase) && !removed.ignoreCase
  asciiOnly := added.asciiOnly || (f.asciiOnly && !added.allScripts)
  allScripts := added.allScripts || (f.allScripts && !added.asciiOnly)
  multiline := (f.multiline || added.multiline) && !removed.multiline
  dotAll := (f.dotAll || added.dotAll) && !removed.dotAll
  verbose := (f.verbose || added.verbose) && !removed.verbose
  noRepeats := f.noRepeats

/-- The settings with all of `added` turned on. -/
def union (f added : Flags) : Flags where
  ignoreCase := f.ignoreCase || added.ignoreCase
  asciiOnly := f.asciiOnly || added.asciiOnly
  allScripts := f.allScripts || added.allScripts
  multiline := f.multiline || added.multiline
  dotAll := f.dotAll || added.dotAll
  verbose := f.verbose || added.verbose
  noRepeats := f.noRepeats || added.noRepeats

def overlaps (a b : Flags) : Bool :=
  (a.ignoreCase && b.ignoreCase) || (a.multiline && b.multiline) || (a.dotAll && b.dotAll)
    || (a.verbose && b.verbose)

end Flags

end EnvAudit.Pattern
