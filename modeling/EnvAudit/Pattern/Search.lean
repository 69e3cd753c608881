import EnvAudit.Pattern.Basic

/-!
# Finding patterns in text

A cursor stands between two characters.  A pattern is run from a cursor with a continuation, which
is asked at every place where the pattern can end, in the order of preference; the first place that
the continuation accepts is the answer.  All recursion is on the pattern, on a count or on the
text.
-/

namespace EnvAudit

/-- A place between the characters of a text. -/
structure Cursor where
  /-- The characters passed, nearest first. -/
  before : List Char
  /-- The characters ahead. -/
  after : List Char
  /-- How many characters are passed. -/
  index : Nat
deriving Repr, DecidableEq, Inhabited

namespace Cursor

def start (text : List Char) : Cursor := ⟨[], text, 0⟩

/-- The place `count` characters back, if that many are passed. -/
def back? : (count : Nat) → Cursor → Option Cursor
  | 0, c => some c
  | _ + 1, ⟨[], _, _⟩ => none
  | count + 1, ⟨ch :: before, after, index⟩ => back? count ⟨before, ch :: after, index - 1⟩

/-- The place after `count` characters that pass the test, if the next ones do. -/
def readExactly? (test : Char → Bool) : (count : Nat) → Cursor → Option Cursor
  | 0, c => some c
  | _ + 1, ⟨_, [], _⟩ => none
  | count + 1, ⟨before, ch :: after, index⟩ =>
    if test ch then readExactly? test count ⟨ch :: before, after, index + 1⟩ else none

/-- The places after zero, one, … characters that pass the test, at most `most`, the farthest
first, in front of `nearer`. -/
def stops (test : Char → Bool) (before : List Char) (index : Nat) :
    (after : List Char) → (most : Option Nat) → (nearer : List Cursor) → List Cursor
  | [], _, nearer => ⟨before, [], index⟩ :: nearer
  | after, some 0, nearer => ⟨before, after, index⟩ :: nearer
  | ch :: after, most, nearer =>
    let nearer := ⟨before, ch :: after, index⟩ :: nearer
    if test ch then stops test (ch :: before) (index + 1) after (most.map (· - 1)) nearer
    else nearer

/-- The first answer of `ask` at the places after zero, one, … characters that pass the test, at
most `most`, the nearest first. -/
def nearest? {α : Type} (test : Char → Bool) (ask : Cursor → Option α) (before : List Char)
    (index : Nat) : (after : List Char) → (most : Option Nat) → Option α
  | [], _ => ask ⟨before, [], index⟩
  | ch :: after, most =>
    match ask ⟨before, ch :: after, index⟩ with
    | some answer => some answer
    | none =>
      if most != some 0 && test ch then
        nearest? test ask (ch :: before) (index + 1) after (most.map (· - 1))
      else none

/-- Whether an edge condition holds at the place. -/
def isAt (c : Cursor) : Edge → Bool
  | .textStart => c.before.isEmpty
  | .textEnd => c.after.isEmpty
  | .lastLineEnd => c.after.isEmpty || c.after == ['\n']
  | .lineStart => c.before.isEmpty || c.before.head? == some '\n'
  | .lineEnd => c.after.isEmpty || c.after.head? == some '\n'
  | .wordEdge asciiOnly inside =>
    let isWord := CharKind.word.admits asciiOnly
    let change := c.before.head?.any isWord != c.after.head?.any isWord
    !(c.before.isEmpty && c.after.isEmpty) && change != inside

/-- The characters between a place and a later one of the same text. -/
def upTo (c stop : Cursor) : List Char := c.after.take (stop.index - c.index)

end Cursor

/-- What a group read: where it began and where it ended. -/
structure Capture where
  group : Nat
  start : Cursor
  stop : Cursor
deriving Repr, Inhabited

def Capture.text (capture : Capture) : List Char := capture.start.upTo capture.stop

/-- How far a run has come: the place, and what the groups read, the latest first. -/
structure Reading where
  cursor : Cursor
  captures : List Capture
deriving Repr, Inhabited

namespace Reading

/-- What a group read last. -/
def capture? (r : Reading) (group : Nat) : Option Capture :=
  r.captures.find? (·.group == group)

/-- The run after a group that began at `start` has ended. -/
def close (r : Reading) (group : Nat) (start : Cursor) : Reading :=
  { r with captures := ⟨group, start, r.cursor⟩ :: r.captures }

def again? (r : Reading) (rule : CaseRule) (text : List Char) : Option Reading :=
  (go text r.cursor).map fun cursor => { r with cursor }
where
  /-- Reads `text` character by character. -/
  go : List Char → Cursor → Option Cursor
    | [], c => some c
    | _ :: _, ⟨_, [], _⟩ => none
    | want :: text, ⟨before, ch :: after, index⟩ =>
      if rule.lower want == rule.lower ch then go text ⟨ch :: before, after, index + 1⟩ else none

end Reading

namespace Pattern

/-- A pattern's behaviour: from a run, the first way to end that the continuation accepts. -/
abbrev Behaviour := Reading → (Reading → Option Reading) → Option Reading

/-- Repeats a behaviour after the least count is reached.  Each entry of `budget` pays for one
repetition; a repetition that starts where the one before it started is not tried, so one entry
more than the characters ahead is enough. -/
def moreOf (body : Behaviour) (greed : Greed) (goOn : Reading → Option Reading) :
    (budget : List Char) → (most : Option Nat) → (last : Option Nat) → Reading → Option Reading
  | [], _, _, r => goOn r
  | _ :: budget, most, last, r =>
    let mayRepeat := most != some 0 && last != some r.cursor.index
    let next := moreOf body greed goOn budget (most.map (· - 1)) (some r.cursor.index)
    match greed with
    | .greedy =>
      if mayRepeat then
        match body r next with
        | some done => some done
        | none => goOn r
      else goOn r
    | .lazy =>
      match goOn r with
      | some done => some done
      | none => if mayRepeat then body r next else none
    | .possessive =>
      if mayRepeat then
        match body r some with
        | some r' => next r'
        | none => goOn r
      else goOn r

/-- Repeats a behaviour between `least` and `most` times. -/
def repeated (body : Behaviour) (greed : Greed) (goOn : Reading → Option Reading)
    (most : Option Nat) : (least : Nat) → Reading → Option Reading
  | 0, r => moreOf body greed goOn (' ' :: r.cursor.after) most none r
  | least + 1, r =>
    let next := repeated body greed goOn (most.map (· - 1)) least
    match greed with
    | .possessive => (body r some).bind next
    | _ => body r next

/-- Repeats one character of a class between `least` and `most` times. -/
def repeatedChar (k : CharClass) (least : Nat) (most : Option Nat) (greed : Greed)
    (r : Reading) (goOn : Reading → Option Reading) : Option Reading :=
  match r.cursor.readExactly? k.admits least with
  | none => none
  | some ⟨before, after, index⟩ =>
    let most := most.map (· - least)
    let ask (cursor : Cursor) : Option Reading := goOn { r with cursor }
    match greed with
    | .greedy => (Cursor.stops k.admits before index after most []).findSome? ask
    | .lazy => Cursor.nearest? k.admits ask before index after most
    | .possessive => (Cursor.stops k.admits before index after most []).head?.bind ask

/-- Runs a pattern: the first way for it to end that the continuation accepts. -/
def run : Pattern → Behaviour
  | empty, r, goOn => goOn r
  | one k, r, goOn =>
    match r.cursor with
    | ⟨_, [], _⟩ => none
    | ⟨before, c :: after, index⟩ =>
      if k.admits c then goOn { r with cursor := ⟨c :: before, after, index + 1⟩ } else none
  | seq a b, r, goOn => a.run r fun r' => b.run r' goOn
  | alt a b, r, goOn =>
    match a.run r goOn with
    | some done => some done
    | none => b.run r goOn
  | group index body, r, goOn => body.run r fun r' => goOn (r'.close index r.cursor)
  | many k least most greed, r, goOn => repeatedChar k least most greed r goOn
  | loop body least most greed, r, goOn =>
    repeated (fun r goOn => body.run r goOn) greed goOn most least r
  | edge place, r, goOn => if r.cursor.isAt place then goOn r else none
  | ahead wanted body, r, goOn =>
    match body.run r some with
    | some r' => if wanted then goOn { r' with cursor := r.cursor } else none
    | none => if wanted then none else goOn r
  | behind wanted width body, r, goOn =>
    match (r.cursor.back? width).bind fun cursor => body.run { r with cursor } some with
    | some r' => if wanted then goOn { r' with cursor := r.cursor } else none
    | none => if wanted then none else goOn r
  | atomic body, r, goOn => (body.run r some).bind goOn
  | again index rule, r, goOn =>
    match r.capture? index with
    | none => none
    | some capture => (r.again? rule capture.text).bind goOn
  | ifGroup index yes no, r, goOn =>
    if (r.capture? index).isSome then yes.run r goOn else no.run r goOn

/-- A place where a pattern was read: where it begins and how the run ended. -/
structure Match where
  start : Cursor
  reading : Reading
deriving Repr, Inhabited

def Match.group? (m : Match) (group : Nat) : Option (List Char) :=
  (m.reading.capture? group).map Capture.text

/-- The match that begins at the given place, if there is one. -/
def matchAt? (p : Pattern) (c : Cursor) : Option Match :=
  (p.run ⟨c, []⟩ some).map fun r => ⟨c, r⟩

/-- The match that begins at the given place and reads at least one character. -/
def properMatchAt? (p : Pattern) (c : Cursor) : Option Match :=
  (p.run ⟨c, []⟩ fun r => if r.cursor.index = c.index then none else some r).map fun r => ⟨c, r⟩

def findFrom? (p : Pattern) (before : List Char) (index : Nat) : List Char → Option Match
  | [] => p.matchAt? ⟨before, [], index⟩
  | c :: after =>
    match p.matchAt? ⟨before, c :: after, index⟩ with
    | some m => some m
    | none => p.findFrom? (c :: before) (index + 1) after

def find? (p : Pattern) (text : List Char) : Option Match := p.findFrom? [] 0 text

/-- Whether the pattern can be read somewhere in a text. -/
def occursIn (p : Pattern) (text : List Char) : Bool := (p.find? text).isSome

/-- The matches that begin at one place: a match, and after an empty one a match that is not. -/
def matchesAt (p : Pattern) (c : Cursor) : List Match :=
  match p.matchAt? c with
  | none => []
  | some m =>
    if m.reading.cursor.index = c.index then m :: (p.properMatchAt? c).toList else [m]

/-- The matches from a place on, from left to right.  None begins before `free`, where the one
before it ended. -/
def matchesFrom (p : Pattern) (before : List Char) (index free : Nat) :
    List Char → List Match
  | [] => if index < free then [] else p.matchesAt ⟨before, [], index⟩
  | c :: after =>
    if index < free then p.matchesFrom (c :: before) (index + 1) free after
    else
      match p.matchesAt ⟨before, c :: after, index⟩ with
      | [] => p.matchesFrom (c :: before) (index + 1) free after
      | m :: more =>
        let last := (m :: more).getLast (by simp)
        m :: more ++ p.matchesFrom (c :: before) (index + 1) last.reading.cursor.index after

/-- All matches in a text, from left to right, none overlapping another. -/
def allMatches (p : Pattern) (text : List Char) : List Match := p.matchesFrom [] 0 0 text

end Pattern

end EnvAudit
