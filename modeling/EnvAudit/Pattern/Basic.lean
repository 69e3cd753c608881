import EnvAudit.Pattern.CharClass

/-!
# Text patterns

The syntax tree of backtracking patterns: characters, sequences, ordered choices, numbered groups,
repetitions, positions, looking ahead and behind, and references to what a group has read.
-/

namespace EnvAudit

/-- In which order the counts of a repetition are tried. -/
inductive Greed
  /-- The largest count first. -/
  | greedy
  /-- The smallest count first. -/
  | lazy
  /-- The largest count, and no other. -/
  | possessive
deriving Repr, DecidableEq

/-- A condition on a position between characters. -/
inductive Edge
  /-- Before the first character. -/
  | textStart
  /-- After the last character. -/
  | textEnd
  /-- After the last character, or before a line end that is the last character. -/
  | lastLineEnd
  /-- At the start of the text or after a line end. -/
  | lineStart
  /-- At the end of the text or before a line end. -/
  | lineEnd
  /-- Between a word character and something else; with `inside`, where there is no such change. -/
  | wordEdge (asciiOnly inside : Bool)
deriving Repr, DecidableEq

/-- A backtracking pattern. -/
inductive Pattern
  /-- Reads nothing. -/
  | empty
  /-- Reads one character of a class. -/
  | one (k : CharClass)
  /-- Reads `a` and then `b`. -/
  | seq (a b : Pattern)
  /-- Reads `a`, or else `b`. -/
  | alt (a b : Pattern)
  /-- Reads `body` and remembers what it read. -/
  | group (index : Nat) (body : Pattern)
  /-- Reads between `least` and `most` characters of a class. -/
  | many (k : CharClass) (least : Nat) (most : Option Nat) (greed : Greed)
  /-- Reads `body` between `least` and `most` times. -/
  | loop (body : Pattern) (least : Nat) (most : Option Nat) (greed : Greed)
  /-- Reads nothing, at an edge. -/
  | edge (place : Edge)
  /-- Reads nothing where `body` could be read next, or could not if `wanted` is false. -/
  | ahead (wanted : Bool) (body : Pattern)
  /-- Reads nothing where `body` reads the `width` characters just passed, or does not if `wanted`
  is false. -/
  | behind (wanted : Bool) (width : Nat) (body : Pattern)
  /-- Reads what `body` reads first and no other way. -/
  | atomic (body : Pattern)
  /-- Reads again what a group has read. -/
  | again (group : Nat) (rule : CaseRule)
  /-- Reads `yes` if the group has read something, and `no` otherwise. -/
  | ifGroup (group : Nat) (yes no : Pattern)
deriving Repr, Inhabited

namespace Pattern

instance : Append Pattern := ⟨seq⟩

instance : OrOp Pattern := ⟨alt⟩

/-- Reads exactly the given text. -/
def text (s : String) : Pattern := s.toList.foldr (fun c rest => one (.ofChar c) ++ rest) empty

/-- Reads the first of the given texts that fits. -/
def anyText : List String → Pattern
  | [] => ahead false empty
  | [s] => text s
  | s :: more => text s ||| anyText more

/-- Any number of characters of a class, as many as possible first. -/
def star (k : CharClass) : Pattern := many k 0 none .greedy

/-- One or more characters of a class, as many as possible first. -/
def plus (k : CharClass) : Pattern := many k 1 none .greedy

/-- Any number of characters of a class, as few as possible first. -/
def starLazy (k : CharClass) : Pattern := many k 0 none .lazy

/-- The pattern or nothing, the pattern first. -/
def opt (p : Pattern) : Pattern := loop p 0 (some 1) .greedy

/-- Any number of blank characters. -/
def blanks : Pattern := star .blank

/-- One or more blank characters. -/
def blanks1 : Pattern := plus .blank

/-- The pattern with all its letters read in either case. -/
def ignoringCase : Pattern → Pattern
  | empty => empty
  | one k => one { k with caseRule := .unicode }
  | seq a b => seq a.ignoringCase b.ignoringCase
  | alt a b => alt a.ignoringCase b.ignoringCase
  | group index body => group index body.ignoringCase
  | many k least most greed => many { k with caseRule := .unicode } least most greed
  | loop body least most greed => loop body.ignoringCase least most greed
  | edge place => edge place
  | ahead wanted body => ahead wanted body.ignoringCase
  | behind wanted width body => behind wanted width body.ignoringCase
  | atomic body => atomic body.ignoringCase
  | again index _ => again index .unicode
  | ifGroup index yes no => ifGroup index yes.ignoringCase no.ignoringCase

end Pattern

end EnvAudit
