import EnvAudit.Terminal.Console
import Mathlib.Data.List.Basic

/-!
# Lines that can be printed

A tag that closes nothing or makes no sense keeps a line from being printed.  The program writes only tags
with names of styles, and it closes them.  In between stands text of its own, or any text once it is
escaped, and no tag begins in a text without an opening bracket.  That such lines are printed, with the
text that stands in them, is all that is asked of a terminal.
-/

namespace EnvAudit.Terminal

/-- The styles in which lines are printed. -/
def styles : List String :=
  ["bold", "dim", "red", "green", "yellow", "blue", "cyan", "bright_blue", "orange1", "bold green",
    "bold yellow", "red bold"]

/-- A text that adds nothing to a tag, whatever stands beside it. -/
def Bare (text : String) : Prop := ∀ c ∈ text.toList, c ≠ '[' ∧ c ≠ ']' ∧ c ≠ '\\'

instance (text : String) : Decidable (Bare text) :=
  List.decidableBAll (fun c => c ≠ '[' ∧ c ≠ ']' ∧ c ≠ '\\') text.toList

theorem Bare.append {front back : String} (hfront : Bare front) (hback : Bare back) :
    Bare (front ++ back) := by
  intro c hc
  rw [String.toList_append, List.mem_append] at hc
  exact hc.elim (hfront c) (hback c)

theorem Bare.notMem {text : String} (h : Bare text) : '[' ∉ text.toList := fun hmem => (h _ hmem).1 rfl

theorem bare_toString (count : Nat) : Bare (toString count) := by
  intro c hc
  have htext : (toString count).toList = Nat.toDigits 10 count := String.toList_ofList
  have hdigit := Nat.isDigit_of_mem_toDigits (by decide) (by decide) (htext ▸ hc)
  refine ⟨?_, ?_, ?_⟩ <;> rintro rfl <;> cases hdigit

section Console

variable [Console] {front back inner line rest style text : String} {lines : List String}
  {noColor : Bool} {printed : List Char}

/-- What can stand between the tags of a style. -/
inductive Inner : String → Prop
  | text {text : String} (h : '[' ∉ text.toList) : Inner text
  | escaped {front back : String} (hfront : Bare front) (text : String) (hback : Bare back) :
      Inner (front ++ Console.escape text ++ back)

/-- A line that can be printed. -/
inductive Printable : String → Prop
  | text {text : String} (h : '[' ∉ text.toList) : Printable text
  | escaped (text : String) {back : String} (hback : Bare back) : Printable (Console.escape text ++ back)
  | bare {front rest : String} (hfront : Bare front) (hrest : Printable rest) : Printable (front ++ rest)
  | tagged {style inner rest : String} (hstyle : style ∈ styles) (hinner : Inner inner)
      (hrest : Printable rest) : Printable (tagged style inner ++ rest)

theorem Inner.of_bare (h : Bare text) : Inner text := .text h.notMem

theorem Inner.behind (hfront : Bare front) (text : String) : Inner (front ++ Console.escape text) := by
  have h : Inner (front ++ Console.escape text ++ "") := .escaped hfront text (by decide)
  rwa [String.append_empty] at h

theorem Inner.escape (text : String) : Inner (Console.escape text) := by
  have h : Inner ("" ++ Console.escape text) := .behind (by decide) text
  rwa [String.empty_append] at h

theorem Printable.nil : Printable "" := .text (by decide)

theorem Printable.escape (text : String) : Printable (Console.escape text) := by
  have h : Printable (Console.escape text ++ "") := .escaped text (by decide)
  rwa [String.append_empty] at h

theorem Printable.of_tagged (hstyle : style ∈ styles) (hinner : Inner inner) :
    Printable (Terminal.tagged style inner) := by
  have h := Printable.tagged hstyle hinner .nil
  rwa [String.append_empty] at h

/-- A line that begins with the tag of a style and ends with the one that closes it. -/
theorem Printable.of_line {opening closing : String} (style front back : String) (hstyle : style ∈ styles)
    (hopening : opening = "[" ++ style ++ "]" ++ front) (hclosing : closing = back ++ ("[/" ++ style ++ "]"))
    (hinner : Inner (front ++ inner ++ back)) : Printable (opening ++ inner ++ closing) := by
  have hline : opening ++ inner ++ closing = Terminal.tagged style (front ++ inner ++ back) := by
    change _ = "[" ++ style ++ "]" ++ (front ++ inner ++ back) ++ ("[/" ++ style ++ "]")
    rw [hopening, hclosing]
    simp only [String.append_assoc]
  rw [hline]
  exact .of_tagged hstyle hinner

/-- What is asked of a terminal. -/
class LawfulConsole : Prop where
  isOk_print {line : String} (noColor : Bool) (h : Printable line) :
    (Console.print noColor line).isOk = true
  /-- A text that begins with a letter is printed with it. -/
  mem_print {style text : String} {c : Char} {noColor : Bool} {printed : List Char}
    (hstyle : style ∈ styles) (hc : c ∈ text.toList.head?) (hletter : c.isAlpha = true)
    (h : Console.print noColor s!"[{style}]{text}" = .ok printed) : c ∈ printed

end Console

end EnvAudit.Terminal
