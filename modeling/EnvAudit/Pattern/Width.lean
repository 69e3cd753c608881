import EnvAudit.Pattern.Basic

/-!
# Widths of patterns

How many characters a pattern can read.  Looking behind needs a pattern of one width.
-/

namespace EnvAudit.Pattern

/-- The least and the greatest number of characters that a pattern reads; no greatest number if
there is no bound. -/
structure Width where
  least : Nat
  most : Option Nat
deriving Repr, DecidableEq, Inhabited

namespace Width

def add (a b : Width) : Width := ⟨a.least + b.least, a.most.bind fun x => b.most.map (x + ·)⟩

def either (a b : Width) : Width :=
  ⟨min a.least b.least, a.most.bind fun x => b.most.map (max x ·)⟩

def times (w : Width) (least : Nat) (most : Option Nat) : Width :=
  ⟨w.least * least,
    match most with
    | none => if w.most = some 0 then some 0 else none
    | some n => w.most.map (· * n)⟩

end Width

/-- The number of characters that a pattern reads, where `groups` knows the widths of groups. -/
def width (groups : Nat → Width) : Pattern → Width
  | empty | edge _ | ahead _ _ | behind _ _ _ => ⟨0, some 0⟩
  | one _ => ⟨1, some 1⟩
  | seq a b => (a.width groups).add (b.width groups)
  | alt a b => (a.width groups).either (b.width groups)
  | group _ body | atomic body => body.width groups
  | many _ least most _ => (⟨1, some 1⟩ : Width).times least most
  | loop body least most _ => (body.width groups).times least most
  | again index _ => groups index
  | ifGroup _ yes no => (yes.width groups).either (no.width groups)

end EnvAudit.Pattern
