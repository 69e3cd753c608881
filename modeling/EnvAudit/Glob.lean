/-!
# Glob patterns

In a glob, `*` stands for any text, `?` for any character and `[…]` for one of a set of characters;
slashes and line ends are characters like any other.  A set may be negated by `!`, and a hyphen
between two members makes a range; a range whose ends are out of order is empty.  A bracket that is
never closed stands for itself.
-/

namespace EnvAudit

/-- One part of a glob. -/
inductive GlobPart
  | anyText
  /-- One character of the given ranges, or of none of them if `negated`. -/
  | oneOf (negated : Bool) (ranges : List (Char × Char))
deriving Repr, DecidableEq

namespace Glob

def anyChar : GlobPart := .oneOf true []

def char (c : Char) : GlobPart := .oneOf false [(c, c)]

/-- Whether a part reads a character. -/
def admits (negated : Bool) (ranges : List (Char × Char)) (c : Char) : Bool :=
  ranges.any (fun (low, high) => low ≤ c && c ≤ high) != negated

/-- Whether a test holds for some suffix of a text. -/
def anySuffix (test : List Char → Bool) : List Char → Bool
  | [] => test []
  | c :: rest => test (c :: rest) || anySuffix test rest

def reads : List GlobPart → List Char → Bool
  | [], text => text.isEmpty
  | .anyText :: rest, text => anySuffix (reads rest) text
  | .oneOf negated ranges :: rest, text =>
    match text with
    | [] => false
    | c :: text => admits negated ranges c && reads rest text

/-- For every place of a list, whether the list holds a `true` from there on. -/
def anyOnwards : List Bool → List Bool
  | [] => []
  | b :: rest =>
    let later := anyOnwards rest
    (b || later.head?.getD false) :: later

/-- For every suffix of a text, the longest first, whether the parts read it.  Each part looks at
each suffix once, however many parts stand for any text. -/
def readsSuffixes : List GlobPart → List Char → List Bool
  | [], text => text.map (fun _ => false) ++ [true]
  | .anyText :: rest, text => anyOnwards (readsSuffixes rest text)
  | .oneOf negated ranges :: rest, text =>
    text.zipWith (fun c later => admits negated ranges c && later) (readsSuffixes rest text).tail
      ++ [false]

theorem readsSuffixes_nil (parts : List GlobPart) : readsSuffixes parts [] = [reads parts []] := by
  induction parts with
  | nil => rfl
  | cons part rest ih => cases part <;> simp [readsSuffixes, anyOnwards, reads, anySuffix, ih]

theorem readsSuffixes_cons (parts : List GlobPart) (c : Char) (text : List Char) :
    readsSuffixes parts (c :: text) = reads parts (c :: text) :: readsSuffixes parts text := by
  induction parts generalizing c text with
  | nil => rfl
  | cons part rest ih =>
    cases part with
    | anyText =>
      have onwards (text : List Char) :
          (anyOnwards (readsSuffixes rest text)).head?.getD false =
            anySuffix (reads rest) text := by
        induction text with
        | nil => simp [readsSuffixes_nil, anyOnwards, anySuffix]
        | cons c text iht => simp [ih, anyOnwards, anySuffix, iht]
      simp [readsSuffixes, ih, anyOnwards, reads, anySuffix, onwards]
    | oneOf negated ranges =>
      cases text <;> simp [readsSuffixes, readsSuffixes_nil, ih, reads]

/-- The first place tells about the whole text. -/
theorem head_readsSuffixes (parts : List GlobPart) (text : List Char) :
    (readsSuffixes parts text).head?.getD false = reads parts text := by
  cases text with
  | nil => simp [readsSuffixes_nil]
  | cons c text => simp [readsSuffixes_cons]

/-- The body of a set cut at the hyphens that make ranges.  The first `keep` characters, and two
after each such hyphen, are no such hyphens. -/
def chunks (keep : Nat) (current : List Char) : List Char → List (List Char)
  | [] => [current.reverse]
  | c :: rest =>
    match keep with
    | keep + 1 => chunks keep (c :: current) rest
    | 0 => if c = '-' then current.reverse :: chunks 2 [] rest else chunks 0 (c :: current) rest

/-- Gives a hyphen at the end of a set, which makes no range, to the last chunk. -/
def closeChunks : List (List Char) → List (List Char)
  | [] => []
  | [last] => [last]
  | [chunk, []] => [chunk ++ ['-']]
  | chunk :: rest => chunk :: closeChunks rest

/-- Joins two chunks without the ends of the range between them if the range is empty. -/
def joinIfEmpty (chunk : List Char) : List (List Char) → List (List Char)
  | [] => [chunk]
  | next :: rest =>
    match chunk.getLast?, next with
    | some low, high :: more =>
      if high < low then (chunk.dropLast ++ more) :: rest else chunk :: next :: rest
    | _, _ => chunk :: next :: rest

/-- The ranges of chunks: between the end of a chunk and the start of the next one, and one for each
character left over. -/
def rangesOf : List (List Char) → List (Char × Char)
  | [] => []
  | [chunk] => chunk.map fun c => (c, c)
  | chunk :: next :: rest =>
    let between := match chunk.getLast?, next.head? with
      | some low, some high => [(low, high)]
      | _, _ => []
    chunk.map (fun c => (c, c)) ++ between ++ rangesOf (next :: rest)

def setOf (body : List Char) : GlobPart :=
  let cut := closeChunks (chunks (if body.head? = some '!' then 2 else 1) [] body)
  match cut.foldr joinIfEmpty [] with
  | ['!'] :: next :: rest => .oneOf true (rangesOf (('-' :: next) :: rest))
  | ('!' :: chunk) :: rest => .oneOf true (rangesOf (chunk :: rest))
  | chunks => .oneOf false (rangesOf chunks)

def untilBracket : List Char → Option (List Char × List Char)
  | [] => none
  | ']' :: rest => some ([], rest)
  | c :: rest => (untilBracket rest).map fun (body, after) => (c :: body, after)

/-- Splits what follows an opening bracket into the body of the set and the rest.  A closing bracket
in the first place, or after the mark of negation, belongs to the body. -/
def bracketBody? : List Char → Option (List Char × List Char)
  | '!' :: ']' :: rest => (untilBracket rest).map fun (body, after) => ('!' :: ']' :: body, after)
  | ']' :: rest => (untilBracket rest).map fun (body, after) => (']' :: body, after)
  | text => untilBracket text

/-- The parts of a written glob.  `skip` counts the characters that belong to a set already read. -/
def partsAfter : (skip : Nat) → List Char → List GlobPart
  | _, [] => []
  | skip + 1, _ :: rest => partsAfter skip rest
  | 0, '*' :: rest => .anyText :: partsAfter 0 rest
  | 0, '?' :: rest => anyChar :: partsAfter 0 rest
  | 0, '[' :: rest =>
    match bracketBody? rest with
    | none => char '[' :: partsAfter 0 rest
    | some (body, _) => setOf body :: partsAfter (body.length + 1) rest
  | 0, c :: rest => char c :: partsAfter 0 rest

def parse (glob : List Char) : List GlobPart := partsAfter 0 glob

def fits (glob text : List Char) : Bool := (readsSuffixes (parse glob) text).head?.getD false

theorem fits_eq_reads (glob text : List Char) : fits glob text = reads (parse glob) text :=
  head_readsSuffixes (parse glob) text

end Glob

end EnvAudit
