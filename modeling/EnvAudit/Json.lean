import EnvAudit.Text.Hex

/-!
# JSON documents

A document and its text.  The text is ASCII: other characters are written as UTF-16 units.  Fields
keep their order.
-/

namespace EnvAudit

/-- A JSON document without fractions. -/
inductive Json
  | null
  | int (value : Int)
  | str (value : String)
  | arr (items : List Json)
  | obj (fields : List (String × Json))
deriving Repr, Inhabited

namespace Json

def ofOption : Option String → Json
  | none => null
  | some s => str s

def strings (items : List String) : Json := arr (items.map str)

def escapeUnit (unit : Nat) : List Char := '\\' :: 'u' :: Text.hexDigits 4 unit

def encodeChar (c : Char) : List Char :=
  match c with
  | '"' => ['\\', '"']
  | '\\' => ['\\', '\\']
  | '\n' => ['\\', 'n']
  | '\r' => ['\\', 'r']
  | '\t' => ['\\', 't']
  | '\x08' => ['\\', 'b']
  | '\x0c' => ['\\', 'f']
  | c =>
    if 0x20 ≤ c.toNat ∧ c.toNat < 0x7f then [c]
    else if c.toNat < 0x10000 then escapeUnit c.toNat
    else
      let offset := c.toNat - 0x10000
      escapeUnit (0xd800 + offset / 0x400) ++ escapeUnit (0xdc00 + offset % 0x400)

def encodeString (s : String) : String :=
  String.ofList ('"' :: (s.toList.flatMap encodeChar ++ ['"']))

/-- How a document is laid out: on one line, or with each member on a line of its own, indented by
two spaces per level. -/
inductive Layout
  | oneLine
  | indented
deriving Repr, DecidableEq

/-- The line break at a level, if the layout has any. -/
def Layout.break (layout : Layout) (level : Nat) : String :=
  match layout with
  | oneLine => ""
  | indented => "\n" ++ String.ofList (List.replicate (2 * level) ' ')

def Layout.comma (layout : Layout) (level : Nat) : String :=
  match layout with
  | oneLine => ", "
  | indented => "," ++ layout.break level

/-- Members between brackets; without members the brackets stand together. -/
def sequence (layout : Layout) (level : Nat) (opening closing : String) : List String → String
  | [] => opening ++ closing
  | members =>
    opening ++ layout.break (level + 1) ++ (layout.comma (level + 1)).intercalate members
      ++ layout.break level ++ closing

mutual

def render (layout : Layout) (level : Nat) : Json → String
  | null => "null"
  | int value => toString value
  | str value => encodeString value
  | arr items => sequence layout level "[" "]" (renderItems layout (level + 1) items)
  | obj fields => sequence layout level "\x7b" "\x7d" (renderFields layout (level + 1) fields)

def renderItems (layout : Layout) (level : Nat) : List Json → List String
  | [] => []
  | item :: rest => item.render layout level :: renderItems layout level rest

def renderFields (layout : Layout) (level : Nat) : List (String × Json) → List String
  | [] => []
  | (name, value) :: rest =>
    (encodeString name ++ ": " ++ value.render layout level) :: renderFields layout level rest

end

def toText (layout : Layout) (document : Json) : String := document.render layout 0

end Json

end EnvAudit
