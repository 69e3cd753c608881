import EnvAudit.Proofs.Pattern.Leftmost
import EnvAudit.Proofs.Pattern.Marks
import EnvAudit.Proofs.Text.Word

/-!
# Names between marks

The name that a pattern remembers ends in front of a mark, if the rest of the pattern begins with one.
It begins behind a mark if the pattern reads one in front, or else with the match.
-/

namespace EnvAudit

open Pattern

/-- The name that group 1 has read last begins at a place with `S` and ends in front of a mark. -/
structure Reading.EndsName (r : Reading) (S : Cursor → Prop) (capture : Capture) : Prop where
  capture? : r.capture? 1 = some capture
  start : S capture.start
  le : capture.start.index ≤ capture.stop.index
  stop : capture.stop.BeforeMark

theorem Reading.EndsName.mono {r : Reading} {S T : Cursor → Prop} {capture : Capture}
    (h : r.EndsName S capture) (hT : T capture.start) : r.EndsName T capture :=
  ⟨h.capture?, hT, h.le, h.stop⟩

/-- Group 1 of the match has read what stands between `front` and `back`. -/
def Pattern.Match.Captures (m : Match) (front back : List Char) : Prop :=
  ∃ capture, m.reading.capture? 1 = some capture ∧ capture.start.before.reverse = front ∧
    capture.stop.after = back

theorem Cursor.AfterMark.wholeFront {c : Cursor} (h : c.AfterMark) :
    Text.WholeFront c.before.reverse := by
  intro ch hch
  rw [List.getLast?_reverse] at hch
  exact Text.isAsciiWord_eq_false (h ch hch)

theorem Cursor.BeforeMark.wholeBack {c : Cursor} (h : c.BeforeMark) : Text.WholeBack c.after :=
  fun ch hch => Text.isAsciiWord_eq_false (h ch hch)

namespace Pattern

variable {S : Cursor → Cursor → Prop} {pre body post a b c p : Pattern} {k line : CharClass}
variable {r r' : Reading} {m : Match} {text : List Char} {ch : Char}

/-! ## Patterns that begin at a mark -/

/-- The pattern can be read in front of a mark only. -/
def BeginsAtMark (p : Pattern) : Prop := ∀ r, ∀ r' ∈ p.ends r, r.cursor.BeforeMark

theorem beginsAtMark_one (hk : k.Separators) : BeginsAtMark (one k) := by
  intro r r' hmem ch hch
  obtain ⟨-, _, ⟨d, hd, rfl⟩, rest, hafter, -⟩ := (reads_one k r r').1 hmem
  rw [hafter] at hch
  exact Option.some.inj hch ▸ hk d hd

theorem beginsAtMark_plus (hk : k.Separators) : BeginsAtMark (plus k) := by
  intro r r' hmem ch hch
  obtain ⟨-, front, ⟨hne, hall⟩, rest, hafter, -⟩ := (reads_plus k r r').1 hmem
  obtain ⟨d, more, rfl⟩ := List.exists_cons_of_ne_nil hne
  rw [hafter] at hch
  exact Option.some.inj hch ▸ hk d (hall d List.mem_cons_self)

theorem BeginsAtMark.seq (ha : BeginsAtMark a) : BeginsAtMark (a ++ b) := by
  intro r r' hmem
  obtain ⟨mid, hmid, -⟩ := List.mem_flatMap.1 hmem
  exact ha r mid hmid

/-- Further separators in front change nothing. -/
theorem BeginsAtMark.star (hk : k.Separators) (hb : BeginsAtMark b) : BeginsAtMark (star k ++ b) := by
  intro r r' hmem ch hch
  obtain ⟨mid, hmid, hend⟩ := List.mem_flatMap.1 hmem
  obtain ⟨-, front, hall, rest, hafter, rfl⟩ := (reads_star k r mid).1 hmid
  rw [hafter] at hch
  cases front with
  | nil => exact hb _ r' hend ch hch
  | cons d more => exact Option.some.inj hch ▸ hk d (hall d List.mem_cons_self)

theorem BeginsAtMark.alt (ha : BeginsAtMark a) (hb : BeginsAtMark b) : BeginsAtMark (a ||| b) := by
  intro r r' hmem
  rcases List.mem_append.1 hmem with hmem | hmem
  · exact ha r r' hmem
  · exact hb r r' hmem

/-! ## Patterns that read a name -/

/-- Every run from a place has read a name that begins at a place related to it by `S`. -/
def Names (S : Cursor → Cursor → Prop) (p : Pattern) : Prop :=
  ∀ r, ∀ r' ∈ p.ends r, ∃ capture, r'.EndsName (S r.cursor) capture

/-- The second place is behind a mark. -/
def BehindMark (_ c : Cursor) : Prop := c.AfterMark

theorem names_first (hpost : BeginsAtMark post) (hkeeps : post.hasGroup 1 = false) :
    Names Eq (group 1 body ++ post) := by
  intro r r' hmem
  obtain ⟨mid, hmid, hend⟩ := List.mem_flatMap.1 hmem
  obtain ⟨last, hlast, rfl⟩ := List.mem_map.1 hmid
  have hle := advances_ends body r last hlast
  refine ⟨⟨1, r.cursor, last.cursor⟩, ?_, rfl, (Nat.le_add_right _ _).trans hle, ?_⟩
  · exact (keepsGroup_ends hkeeps _ r' hend).trans rfl
  · exact hpost (last.close 1 r.cursor) r' hend

theorem Names.behind (hpre : EndsAfterMark pre) (h : Names Eq p) : Names BehindMark (pre ++ p) := by
  intro r r' hmem
  obtain ⟨mid, hmid, hend⟩ := List.mem_flatMap.1 hmem
  obtain ⟨capture, hname⟩ := h mid r' hend
  have hmark : capture.start.AfterMark := hname.start ▸ hpre r mid hmid
  exact ⟨capture, hname.mono hmark⟩

theorem Names.assoc (h : Names S (a ++ (b ++ c))) : Names S (a ++ b ++ c) := by
  intro r r' hmem
  rw [ends_seq_assoc] at hmem
  exact h r r' hmem

theorem Names.seq (h : Names S a) (hb : b.hasGroup 1 = false) : Names S (a ++ b) := by
  intro r r' hmem
  obtain ⟨mid, hmid, hend⟩ := List.mem_flatMap.1 hmem
  obtain ⟨capture, hname⟩ := h r mid hmid
  exact ⟨capture, (keepsGroup_ends hb mid r' hend).trans hname.capture?, hname.start, hname.le,
    hname.stop⟩

theorem Names.after (h : Names BehindMark p) : Names BehindMark (a ++ p) := by
  intro r r' hmem
  obtain ⟨mid, -, hend⟩ := List.mem_flatMap.1 hmem
  exact h mid r' hend

theorem names_behind (hpre : EndsAfterMark pre) (hpost : BeginsAtMark post)
    (hkeeps : post.hasGroup 1 = false) : Names BehindMark (pre ++ group 1 body ++ post) :=
  .assoc (.behind hpre (names_first hpost hkeeps))

/-! ## Lines -/

/-- The pattern can be read in front of a character of the class only. -/
def StartsIn (k : CharClass) (p : Pattern) : Prop :=
  ∀ r, ∀ r' ∈ p.ends r, ∃ c ∈ r.cursor.after.head?, k.admits c = true

theorem startsIn_one (k : CharClass) : StartsIn k (one k) := by
  intro r r' hmem
  obtain ⟨-, _, ⟨c, hc, rfl⟩, rest, hafter, -⟩ := (reads_one k r r').1 hmem
  exact ⟨c, by rw [hafter]; rfl, hc⟩

theorem startsIn_plus (k : CharClass) : StartsIn k (plus k) := by
  intro r r' hmem
  obtain ⟨-, front, ⟨hne, hall⟩, rest, hafter, -⟩ := (reads_plus k r r').1 hmem
  obtain ⟨c, more, rfl⟩ := List.exists_cons_of_ne_nil hne
  exact ⟨c, by rw [hafter]; rfl, hall c List.mem_cons_self⟩

theorem startsIn_text {s : String} {first : Char} {more : List Char} (hs : s.toList = first :: more)
    (hfirst : k.admits first = true) : StartsIn k (Pattern.text s) := by
  intro r r' hmem
  obtain ⟨-, _, rfl, rest, hafter, -⟩ := (reads_text s r r').1 hmem
  exact ⟨first, by rw [hafter, hs]; rfl, hfirst⟩

theorem StartsIn.behindEdge (h : StartsIn k p) (place : Edge) : StartsIn k (edge place ++ p) := by
  intro r r' hmem
  obtain ⟨mid, hmid, hend⟩ := List.mem_flatMap.1 hmem
  obtain ⟨-, _, rfl, rest, hafter, rfl⟩ := (reads_edge place r mid).1 hmid
  obtain ⟨c, hc, hadmits⟩ := h _ r' hend
  exact ⟨c, by rw [hafter]; exact hc, hadmits⟩

theorem StartsIn.seq (ha : StartsIn k a) : StartsIn k (a ++ b) := by
  intro r r' hmem
  obtain ⟨mid, hmid, -⟩ := List.mem_flatMap.1 hmem
  exact ha r mid hmid

theorem StartsIn.group (ha : StartsIn k a) (index : Nat) : StartsIn k (group index a) := by
  intro r r' hmem
  obtain ⟨mid, hmid, -⟩ := List.mem_map.1 hmem
  exact ha r mid hmid

/-- What the pattern reads first goes on to the end of the line. -/
def EndsLine (line : CharClass) (p : Pattern) : Prop :=
  ∀ r r', First p r r' → ∀ c ∈ r'.cursor.after.head?, line.admits c = false

theorem endsLine_plus (line : CharClass) : EndsLine line (plus line) := fun _ _ h => h.stops_plus

theorem EndsLine.seq (hb : EndsLine line b) : EndsLine line (a ++ b) := by
  intro r r' h
  obtain ⟨mid, -, hlast⟩ := h.of_seq
  exact hb mid r' hlast

theorem EndsLine.group (ha : EndsLine line a) (index : Nat) : EndsLine line (group index a) := by
  intro r r' h
  obtain ⟨mid, hmid, rfl⟩ := h.of_group
  exact ha r mid hmid

/-- In front of a match that begins a line's text, no character stands that the pattern can take in:
the match in front has ended with its line. -/
theorem not_absorbs_of_endsLine (hp : 0 < p.ownWidth.least) (hstarts : StartsIn k p)
    (hends : EndsLine line p) (hline : ∀ c, k.admits c = true → line.admits c = true)
    (hm : m ∈ p.allMatches text) (hch : ch ∈ m.start.before.head?) : ¬ Absorbs p ch := by
  intro habsorbs
  obtain ⟨earlier, hearlier, hplace⟩ := exists_match_ends_at_start hp hm hch habsorbs
  obtain ⟨c, hc, hadmits⟩ := hstarts _ _ (first_of_mem_allMatches hp hm).mem
  have hstop := hends _ _ (first_of_mem_allMatches hp hearlier) c (hplace ▸ hc)
  rw [hline c hadmits] at hstop
  cases hstop

end Pattern

end EnvAudit
