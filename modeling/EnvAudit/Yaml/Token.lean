import EnvAudit.Calendar
import EnvAudit.Text.Quoted

/-!
# Tokens of a document

A YAML document is a sequence of tokens.  The starts and ends of blocks, which the text shows by
indentation alone, are tokens of their own, and so are the keys that only a later colon reveals.
-/

namespace EnvAudit.Yaml

/-- Why a text has no value. -/
inductive Fault
  /-- The text breaks the rules of the notation, or names a type that is not known. -/
  | malformed
  /-- The bytes are no text. -/
  | undecodable
  /-- An escape names a number that is no code point. -/
  | codePoint (value : Nat)
  | integer (base : Nat) (text : List Char)
  | decimal (text : List Char)
  | noDigits
  | tooLong (digits : Nat)
  | truth (text : List Char)
  | timestamp
  /-- A date or time is none of the calendar. -/
  | calendar (cause : CalendarError)
  /-- The reader gives up for another reason. -/
  | other (words : String)
deriving Repr, DecidableEq

def Fault.message : Fault → String
  | malformed => "malformed document"
  | undecodable => "undecodable bytes"
  | codePoint value => s!"there is no code point {value}"
  | integer base text =>
    s!"no whole number in base {base}: " ++ Text.Quoted.quoted (String.ofList text)
  | decimal text =>
    "could not convert string to float: " ++ Text.Quoted.quoted (String.ofList text)
  | noDigits => "string index out of range"
  | tooLong digits => s!"a whole number of {digits} digits is too long"
  | truth text => Text.Quoted.quoted (String.ofList text)
  | timestamp => "neither a date nor a time"
  | calendar cause => cause.message
  | other words => words

/-- A line that tells how to read the document after it. -/
inductive Directive
  /-- The version of the notation. -/
  | version (major : Nat)
  /-- What a handle in front of a tag stands for. -/
  | handle (name : List Char) (stands : List Char)
  /-- Anything else, which is ignored. -/
  | other
deriving Repr, DecidableEq

/-- The written form of a tag. -/
structure TagSpelling where
  handle : Option (List Char)
  suffix : List Char
deriving Repr, DecidableEq

/-- A token. -/
inductive Token
  | directive (d : Directive)
  | documentStart
  | documentEnd
  | blockListStart
  | blockMapStart
  | blockEnd
  | flowListStart
  | flowListEnd
  | flowMapStart
  | flowMapEnd
  | listItem
  | comma
  | key
  | value
  | alias (name : List Char)
  | anchor (name : List Char)
  | tag (spelling : TagSpelling)
  | scalar (text : List Char) (plain : Bool)
  | fault (cause : Fault)
deriving Repr, DecidableEq

end EnvAudit.Yaml
