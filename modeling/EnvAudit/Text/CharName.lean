/-!
# Names of characters

The names that Unicode gives to the printable ASCII characters.
-/

namespace EnvAudit.Text

/-- The names of what is neither a letter nor a digit. -/
def markNames : List (String × Char) :=
  [("SPACE", ' '), ("EXCLAMATION MARK", '!'), ("QUOTATION MARK", '"'), ("NUMBER SIGN", '#'),
    ("DOLLAR SIGN", '$'), ("PERCENT SIGN", '%'), ("AMPERSAND", '&'), ("APOSTROPHE", '\''),
    ("LEFT PARENTHESIS", '('), ("RIGHT PARENTHESIS", ')'), ("ASTERISK", '*'), ("PLUS SIGN", '+'),
    ("COMMA", ','), ("HYPHEN-MINUS", '-'), ("FULL STOP", '.'), ("SOLIDUS", '/'), ("COLON", ':'),
    ("SEMICOLON", ';'), ("LESS-THAN SIGN", '<'), ("EQUALS SIGN", '='), ("GREATER-THAN SIGN", '>'),
    ("QUESTION MARK", '?'), ("COMMERCIAL AT", '@'), ("LEFT SQUARE BRACKET", '['),
    ("REVERSE SOLIDUS", '\\'), ("RIGHT SQUARE BRACKET", ']'), ("CIRCUMFLEX ACCENT", '^'),
    ("LOW LINE", '_'), ("GRAVE ACCENT", '\x60'), ("LEFT CURLY BRACKET", '\x7b'),
    ("VERTICAL LINE", '|'), ("RIGHT CURLY BRACKET", '\x7d'), ("TILDE", '~')]

def digitWords : List String :=
  ["ZERO", "ONE", "TWO", "THREE", "FOUR", "FIVE", "SIX", "SEVEN", "EIGHT", "NINE"]

/-- The names of ASCII characters. -/
def charNames : List (String × Char) :=
  let digits := digitWords.zipIdx.map fun (word, i) => ("DIGIT " ++ word, Char.ofNat (0x30 + i))
  let letters := (List.range 26).flatMap fun i =>
    let capital := Char.ofNat (0x41 + i)
    [ ("LATIN CAPITAL LETTER " ++ capital.toString, capital),
      ("LATIN SMALL LETTER " ++ capital.toString, capital.toLower) ]
  markNames ++ digits ++ letters

/-- The character of a name, in which letter case does not matter. -/
def charNamed? (name : String) : Option Char := charNames.lookup name.toUpper

end EnvAudit.Text
