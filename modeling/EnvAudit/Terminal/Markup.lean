import EnvAudit.Terminal.Console
import EnvAudit.Terminal.Style
import EnvAudit.Text.Case

/-!
# Markup

Text with tags in brackets that turn styles on and off.  A tag is closed by its name after a slash,
or by a slash alone if it is the innermost one; one that is never closed holds up to the end.  A
backslash in front of a tag makes it text.
-/

namespace EnvAudit.Terminal

namespace Markup

def opensTag (c : Char) : Bool := c.isLower || c == '#' || c == '/' || c == '@'

/-- The tag after an opening bracket, and what follows its closing bracket. -/
def tagAfter? (text : List Char) : Option (List Char × List Char) :=
  match text with
  | [] => none
  | c :: rest =>
    if !opensTag c then none
    else
      let body := rest.takeWhile fun c => c != ']' && c != '['
      match rest.drop body.length with
      | ']' :: after => some (c :: body, after)
      | _ => none

/-- The tag at the start of a text, after any number of backslashes. -/
def tagHere? (text : List Char) : Option (Nat × List Char × List Char) :=
  let slashes := (text.takeWhile (· == '\\')).length
  match text.drop slashes with
  | '[' :: rest => (tagAfter? rest).map fun (tag, after) => (slashes, tag, after)
  | _ => none

/-- Puts backslashes in front of what would be read as a tag.  The backslashes that are there
already are doubled, and a single one at the end of the text too. -/
def escapeTags : (fuel : Nat) → List Char → List Char
  | 0, text => text
  | _, [] => []
  | fuel + 1, c :: rest =>
    match tagHere? (c :: rest) with
    | some (slashes, tag, after) =>
      List.replicate (2 * slashes + 1) '\\' ++ '[' :: (tag ++ ']' :: escapeTags fuel after)
    | none => c :: escapeTags fuel rest

/-- Doubles a single backslash at the end of a text. -/
def closeEnd (text : List Char) : List Char :=
  match text.reverse with
  | '\\' :: '\\' :: _ => text
  | '\\' :: _ => text ++ ['\\']
  | _ => text

def escape (text : String) : String :=
  let chars := text.toList
  String.ofList (closeEnd (escapeTags (chars.length + 1) chars))

/-- The name under which a tag is closed.  Blank characters around it and letter case do not matter,
and short names of styles stand for the long ones. -/
def nameOf (tag : List Char) : String :=
  let name := (Text.lowered (Text.trimmed (String.ofList (Text.upTo '=' tag))))
  match name with
  | "b" => "bold"
  | "d" => "dim"
  | "i" => "italic"
  | "u" => "underline"
  | "uu" => "underline2"
  | "s" => "strike"
  | "r" => "reverse"
  | "c" => "conceal"
  | "o" => "overline"
  | name => inOrder name
where
  /-- Puts the words for weight in front of the color. -/
  inOrder (name : String) : String :=
    let words := (Text.splitWhere Text.isBlank name.toList).filter (!·.isEmpty)
    let words := words.map String.ofList
    let isWeight (word : String) : Bool := word == "bold" || word == "dim"
    if words.all fun word => isWeight word || (Color.ofName? word).isSome then
      " ".intercalate (words.filter isWeight ++ words.filter (!isWeight ·))
    else name

/-- A tag that is open. -/
structure OpenTag where
  name : String
  style : Style
deriving Repr, DecidableEq

/-- The style inside open tags, the innermost of which comes first. -/
def styleIn (tags : List OpenTag) : Style :=
  tags.foldr (fun tag style => style.adding tag.style) .plain

/-- Closes the innermost tag of a name; without a name, the innermost tag. -/
def close (name : String) (tags : List OpenTag) : Except MarkupError (List OpenTag) :=
  if name = "" then
    match tags with
    | [] => .error {}
    | _ :: rest => .ok rest
  else if tags.any (·.name == name) then .ok (tags.eraseP (·.name == name))
  else .error {}

/-- Whether a control character is left out of every text. -/
def isDropped (c : Char) : Bool := ['\x07', '\x08', '\x0b', '\x0c', '\r'].contains c

def styled (tags : List OpenTag) (text : List Char) : StyledText :=
  .ofChars (styleIn tags) (text.filter (!isDropped ·))

/-- Reads markup inside open tags.  Outside of tags a backslash in front of a bracket vanishes. -/
def readFrom : (fuel : Nat) → (tags : List OpenTag) → List Char → Except MarkupError StyledText
  | 0, tags, text => .ok (styled tags text)
  | _, _, [] => .ok []
  | fuel + 1, tags, c :: rest =>
    match tagHere? (c :: rest) with
    | none =>
      match c, rest with
      | '\\', '[' :: rest => do return styled tags ['['] ++ (← readFrom fuel tags rest)
      | _, _ => do return styled tags [c] ++ (← readFrom fuel tags rest)
    | some (slashes, tag, after) => do
      let shown := List.replicate (slashes / 2) '\\'
      if slashes % 2 = 1 then
        return styled tags (shown ++ '[' :: (tag ++ [']'])) ++ (← readFrom fuel tags after)
      else
        let inside ←
          match tag with
          | '/' :: name =>
            let name := Text.trim (Text.upTo '=' name)
            close (if name.isEmpty then "" else nameOf name) tags
          | _ => pure (⟨nameOf tag, .ofTag tag⟩ :: tags)
        return styled tags shown ++ (← readFrom fuel inside after)

def read (markup : String) : Except MarkupError StyledText :=
  let chars := markup.toList
  readFrom (chars.length + 1) [] chars

end Markup

end EnvAudit.Terminal
