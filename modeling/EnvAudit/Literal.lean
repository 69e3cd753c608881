import EnvAudit.Text.Blank
import EnvAudit.Text.Split

/-!
# String literals

An expression is a single string literal when it is wrapped in one kind of quote and every quote
of that kind inside follows a backslash.  Calls, numbers and concatenations are not literals, nor is
a template that interpolates a value.
-/

namespace EnvAudit.Literal

def quotes : List Char := ['\'', '"', '`']

/-- Whether every `quote` follows a backslash; `escaped` says whether the first character does. -/
def quotesEscaped (quote : Char) : (escaped : Bool) → List Char → Bool
  | _, [] => true
  | escaped, c :: rest => (c != quote || escaped) && quotesEscaped quote (c == '\\') rest

def unsnoc? : List Char → Option (List Char × Char)
  | [] => none
  | [c] => some ([], c)
  | c :: rest => (unsnoc? rest).map fun (front, last) => (c :: front, last)

/-- The text between the quotes, if the expression is a single literal without blank characters
around it. -/
def inner? (expression : List Char) : Option (List Char) :=
  match expression with
  | [] => none
  | quote :: rest =>
    match unsnoc? rest with
    | none => none
    | some (body, last) =>
      let closed := quotes.contains quote && last == quote && quotesEscaped quote false body
      let interpolates := quote == '`' && Text.occurs ['$', '{'] body
      if closed && !interpolates then some body else none

/-- The text of the literal that an expression is, blank characters around it aside. -/
def text? (expression : String) : Option String :=
  (inner? (Text.trim expression.toList)).map String.ofList

end EnvAudit.Literal
