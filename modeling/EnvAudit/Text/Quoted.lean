import EnvAudit.Text.Hex
import EnvAudit.Text.Printable

/-!
# Quoted text

Text between quotes on one line, as messages show it.  Single quotes are used unless the text holds
a single quote and no double quote; what is not printable is escaped by its code point.
-/

namespace EnvAudit.Text.Quoted

def quoteFor (text : List Char) : Char :=
  if text.contains '\'' && !text.contains '"' then '"' else '\''

def encodeChar (quote c : Char) : List Char :=
  if c = quote ∨ c = '\\' then ['\\', c]
  else if c = '\n' then ['\\', 'n']
  else if c = '\r' then ['\\', 'r']
  else if c = '\t' then ['\\', 't']
  else if isPrintable c then [c]
  else if c.toNat < 0x100 then '\\' :: 'x' :: hexDigits 2 c.toNat
  else if c.toNat < 0x10000 then '\\' :: 'u' :: hexDigits 4 c.toNat
  else '\\' :: 'U' :: hexDigits 8 c.toNat

def encode (text : List Char) : List Char :=
  let quote := quoteFor text
  quote :: (text.flatMap (encodeChar quote) ++ [quote])

def quoted (text : String) : String := String.ofList (encode text.toList)

end EnvAudit.Text.Quoted
