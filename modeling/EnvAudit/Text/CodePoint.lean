/-!
# Code point ranges

Character properties are kept as sorted lists of closed ranges of code points.
-/

namespace EnvAudit.Text

/-- Whether `code` lies in one of the ranges.  The list is sorted, so the search stops at the first
range that starts above `code`. -/
def inRanges (code : Nat) : List (Nat × Nat) → Bool
  | [] => false
  | (low, high) :: rest =>
    if code < low then false else if code ≤ high then true else inRanges code rest

/-- What is asked of the characters in a list is decided by going through the list, and not through
all characters that there are. -/
instance (priority := high) decidableForallMem (P : Char → Prop) [DecidablePred P]
    (chars : List Char) : Decidable (∀ c ∈ chars, P c) :=
  List.decidableBAll P chars

instance (priority := high) decidableExistsMem (P : Char → Prop) [DecidablePred P]
    (chars : List Char) : Decidable (∃ c ∈ chars, P c) :=
  List.decidableBEx P chars

end EnvAudit.Text
