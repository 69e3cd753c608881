import EnvAudit.Text.Blank
import EnvAudit.Text.Case
import EnvAudit.Text.Word

/-!
# Character classes

A class lists ranges of characters and kinds of characters, and may be negated.  The case rule says
which characters count as the same letter; it widens the ranges before negation is applied.
-/

namespace EnvAudit

/-- When two characters count as the same letter. -/
inductive CaseRule
  /-- Only when they are equal. -/
  | exact
  /-- When they are equal or differ in the case of an ASCII letter. -/
  | ascii
  /-- When they are variants of one letter in any script. -/
  | unicode
deriving Repr, DecidableEq, Inhabited

namespace CaseRule

/-- The characters that count as `c`, with `c` among them. -/
def variants (rule : CaseRule) (c : Char) : List Char :=
  match rule with
  | exact => [c]
  | ascii => if c.isAlpha then [c.toLower, c.toUpper] else [c]
  | unicode => Text.caseVariants c

/-- The representative that stands for `c` when the kind of a character is asked. -/
def lower (rule : CaseRule) (c : Char) : Char :=
  match rule with
  | exact => c
  | ascii => c.toLower
  | unicode => Text.lowerChar c

end CaseRule

/-- A kind of character that patterns can name. -/
inductive CharKind
  | word
  | digit
  | blank
deriving Repr, DecidableEq

/-- Whether a character is of the kind.  With `asciiOnly`, no other script counts. -/
def CharKind.admits (kind : CharKind) (asciiOnly : Bool) (c : Char) : Bool :=
  match kind, asciiOnly with
  | word, true => Text.isAsciiWord c
  | word, false => Text.isWord c
  | digit, true => c.isDigit
  | digit, false => Text.isDigit c
  | blank, true => (0x9 ≤ c.toNat && c.toNat ≤ 0xd) || c == ' '
  | blank, false => Text.isBlank c

/-- One member of a class: a closed range of characters, or all characters of a kind or not of
it. -/
inductive ClassItem
  | range (low high : Char)
  | kind (kind : CharKind) (asciiOnly negated : Bool)
deriving Repr, DecidableEq

/-- A set of characters, given by its members. -/
structure CharClass where
  items : List ClassItem
  negated : Bool := false
  caseRule : CaseRule := .exact
deriving Repr, DecidableEq

namespace CharClass

/-- Whether an item holds one of `variants`, or is a kind that `lower` is of. -/
def itemAdmits (variants : List Char) (lower : Char) : ClassItem → Bool
  | .range low high => variants.any fun c => low ≤ c && c ≤ high
  | .kind kind asciiOnly negated => kind.admits asciiOnly lower != negated

def admits (k : CharClass) (c : Char) : Bool :=
  (k.items.any (itemAdmits (k.caseRule.variants c) (k.caseRule.lower c))) != k.negated

def ofChar (c : Char) : CharClass := { items := [.range c c] }

def ofString (members : String) : CharClass := { items := members.toList.map fun c => .range c c }

def ofRanges (ranges : List (Char × Char)) : CharClass :=
  { items := ranges.map fun (low, high) => .range low high }

/-- The members of both classes; the case rule is that of the first. -/
def union (a b : CharClass) : CharClass := { a with items := a.items ++ b.items }

def complement (k : CharClass) : CharClass := { k with negated := !k.negated }

def anyChar : CharClass := { items := [], negated := true }

def notNewline : CharClass := (ofChar '\n').complement

def blank : CharClass := { items := [.kind .blank false false] }

end CharClass

end EnvAudit
