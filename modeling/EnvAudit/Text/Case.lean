import EnvAudit.Text.CaseTable

/-!
# Letter case

Lower-casing of text, and the set of characters that count as the same letter when case is
ignored.  Two characters are variants of each other when their lower-case forms are equal or share
an upper-case form, so `k` goes with the Kelvin sign and `s` with the long `s`.
-/

namespace EnvAudit.Text

/-- The image of a code point under a run, if the run holds it. -/
def CaseRun.image? (run : CaseRun) (code : Nat) : Option Nat :=
  if run.first ≤ code ∧ code ≤ run.last ∧ (code - run.first) % run.step = 0 then
    some (code + run.shift).toNat
  else none

/-- The code point of the run that maps to `code`, if there is one. -/
def CaseRun.preimage? (run : CaseRun) (code : Nat) : Option Nat :=
  let source := (code - run.shift).toNat
  if run.image? source = some code then some source else none

def lowerChar (c : Char) : Char :=
  if c.toNat < 0x80 then c.toLower
  else ((lowerRuns.findSome? (·.image? c.toNat)).map Char.ofNat).getD c

/-- The lower-case letters that share an upper-case form with the given one, itself included. -/
def lowerPeers (code : Nat) : List Nat :=
  (sharedUpper.find? (·.contains code)).getD [code]

/-- The variants of an ASCII character.  Only three letters have relatives above ASCII. -/
def asciiVariants (c : Char) : List Char :=
  match c.toLower with
  | 'i' => ['i', 'I', 'İ', 'ı']
  | 'k' => ['k', 'K', '\u212a']
  | 's' => ['s', 'S', 'ſ']
  | low => if low.isLower then [low, low.toUpper] else [c]

/-- Every character that is the same letter as `c` when case is ignored, `c` among them. -/
def caseVariants (c : Char) : List Char :=
  if c.toNat < 0x80 then asciiVariants c
  else
    (lowerPeers (lowerChar c).toNat).flatMap fun low =>
      (low :: lowerRuns.filterMap (·.preimage? low)).map Char.ofNat

/-- Whether two characters are the same letter when case is ignored. -/
def sameLetter (a b : Char) : Bool := (caseVariants a).contains b

/-- Whether a character stands inside a word without ending it. -/
def isCaseIgnorable (c : Char) : Bool := inRanges c.toNat caseIgnorableRanges

/-- Whether the first character that is not case-ignorable is a letter with case. -/
def meetsCased (text : List Char) : Bool :=
  match text.dropWhile isCaseIgnorable with
  | [] => false
  | c :: _ => inRanges c.toNat casedRanges

/-- Lower case of `rest`, where `before` holds the characters in front of it, nearest first.  A
capital sigma becomes a final sigma after a letter that no letter follows. -/
def lowerAfter (before : List Char) : List Char → List Char
  | [] => []
  | 'Σ' :: rest =>
    (if meetsCased before && !meetsCased rest then 'ς' else 'σ') :: lowerAfter ('Σ' :: before) rest
  | 'İ' :: rest => 'i' :: '\u0307' :: lowerAfter ('İ' :: before) rest
  | c :: rest => lowerChar c :: lowerAfter (c :: before) rest

def lower (text : List Char) : List Char := lowerAfter [] text

def lowered (text : String) : String := String.ofList (lower text.toList)

end EnvAudit.Text
