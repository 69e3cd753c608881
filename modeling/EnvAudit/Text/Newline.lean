/-!
# Line ends

Line ends are `\n`, `\r\n` or `\r`; reading a text turns all of them into `\n`.
-/

namespace EnvAudit.Text

/-- Turns every line end into `\n`. -/
def unifyNewlines : List Char → List Char
  | [] => []
  | '\r' :: '\n' :: rest => '\n' :: unifyNewlines rest
  | '\r' :: rest => '\n' :: unifyNewlines rest
  | c :: rest => c :: unifyNewlines rest

end EnvAudit.Text
