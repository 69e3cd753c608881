import EnvAudit.Text.CodePoint

/-!
# Blank characters

The blank characters are the Unicode spaces, the line and paragraph separators, and the ASCII
controls that separate lines, files, groups, records and units.
-/

namespace EnvAudit.Text

def blankRanges : List (Nat × Nat) :=
  [(0x9, 0xd), (0x1c, 0x20), (0x85, 0x85), (0xa0, 0xa0), (0x1680, 0x1680), (0x2000, 0x200a),
    (0x2028, 0x2029), (0x202f, 0x202f), (0x205f, 0x205f), (0x3000, 0x3000)]

def isBlank (c : Char) : Bool := inRanges c.toNat blankRanges

def trimStart (text : List Char) : List Char := text.dropWhile isBlank

def trimEnd (text : List Char) : List Char := (trimStart text.reverse).reverse

def trim (text : List Char) : List Char := trimEnd (trimStart text)

/-- Drops the blank characters at both ends of a string. -/
def trimmed (text : String) : String := String.ofList (trim text.toList)

end EnvAudit.Text
