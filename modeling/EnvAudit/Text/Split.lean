/-!
# Splitting text

A text is cut at every separator; what stands between two separators, or beside one at the ends of
the text, is a piece, empty or not.
-/

namespace EnvAudit.Text

def consFirst (c : Char) : List (List Char) → List (List Char)
  | [] => [[c]]
  | piece :: more => (c :: piece) :: more

def splitWhere (isSeparator : Char → Bool) : List Char → List (List Char)
  | [] => [[]]
  | c :: rest =>
    if isSeparator c then [] :: splitWhere isSeparator rest
    else consFirst c (splitWhere isSeparator rest)

def splitOn (separator : Char) : List Char → List (List Char) := splitWhere (· == separator)

theorem splitWhere_ne_nil (isSeparator : Char → Bool) (text : List Char) :
    splitWhere isSeparator text ≠ [] := by
  cases text with
  | nil => simp [splitWhere]
  | cons c rest =>
    unfold splitWhere
    split
    · simp
    · cases splitWhere isSeparator rest <;> simp [consFirst]

/-- The characters in front of the first occurrence of a character. -/
def upTo (stop : Char) (text : List Char) : List Char := text.takeWhile (· != stop)

/-- What follows `part` if the text begins with it. -/
def dropPrefix? : (part : List Char) → (text : List Char) → Option (List Char)
  | [], text => some text
  | _ :: _, [] => none
  | p :: part, c :: text => if p = c then dropPrefix? part text else none

/-- Whether `part` occurs in the text. -/
def occurs (part : List Char) : List Char → Bool
  | [] => part.isEmpty
  | c :: text => part.isPrefixOf (c :: text) || occurs part text

end EnvAudit.Text
