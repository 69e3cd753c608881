import EnvAudit.Proofs.Pattern.Leftmost
import EnvAudit.Proofs.Text.Split

/-!
# Patterns fenced by marks

A pattern that admits none of some marks, and that sees no more of its surroundings than the edges of
words, runs between two marks as it does in a text of its own.  Its matches in a text are therefore
those of the pieces between the marks, one piece after the other.
-/

namespace EnvAudit

open Pattern

variable {passed next : List Char}

namespace Cursor

/-- The place in a longer text, where `passed` stands in front, nearest first, and `next` behind. -/
def placed (passed next : List Char) (c : Cursor) : Cursor :=
  ⟨c.before ++ passed, c.after ++ next, c.index + passed.length⟩

variable {test : Char → Bool}

theorem readExactly?_placed (passed : List Char) (hnext : ∀ c ∈ next.head?, test c = false)
    (count : Nat) (c : Cursor) :
    (c.placed passed next).readExactly? test count =
      (c.readExactly? test count).map (placed passed next) := by
  induction count generalizing c with
  | zero => rfl
  | succ count ih =>
      obtain ⟨before, after, index⟩ := c
      cases after with
      | nil =>
          cases next with
          | nil => rfl
          | cons d next => simp [placed, readExactly?, hnext d rfl]
      | cons ch after =>
          have hmore := ih ⟨ch :: before, after, index + 1⟩
          simp only [placed, List.cons_append, readExactly?, Nat.add_right_comm index 1] at hmore ⊢
          split
          · exact hmore
          · rfl

theorem nearest_placed (passed : List Char) (hnext : ∀ c ∈ next.head?, test c = false)
    (before after : List Char) (index : Nat) (most : Option Nat) :
    nearest test (before ++ passed) (index + passed.length) (after ++ next) most =
      (nearest test before index after most).map (placed passed next) := by
  induction after generalizing before index most with
  | nil =>
      cases next with
      | nil => rfl
      | cons d next => simp [placed, nearest, hnext d rfl]
  | cons ch after ih =>
      have hmore := ih (ch :: before) (index + 1) (most.map (· - 1))
      rw [List.cons_append, Nat.add_right_comm] at hmore
      rw [List.cons_append, nearest, nearest, List.map_cons, hmore]
      congr 1
      split <;> rfl

theorem upTo_placed_front (passed : List Char) (c stop : Cursor) :
    (c.placed passed []).upTo (stop.placed passed []) = c.upTo stop := by
  simp only [upTo, placed, List.append_nil, Nat.add_sub_add_right]

theorem upTo_placed_back (next : List Char) {c stop : Cursor}
    (h : stop.index ≤ c.index + c.after.length) :
    (c.placed [] next).upTo (stop.placed [] next) = c.upTo stop := by
  simp only [upTo, placed, List.length_nil, Nat.add_zero]
  exact List.take_append_of_le_length (by omega)

end Cursor

theorem Cursor.Of.index_le {text : List Char} {c : Cursor} (h : c.Of text) :
    c.index ≤ text.length := by
  rw [h.index, ← h.chars, List.length_append, List.length_reverse]
  exact Nat.le_add_right _ _

def Capture.placed (passed next : List Char) (capture : Capture) : Capture :=
  { capture with
    start := capture.start.placed passed next
    stop := capture.stop.placed passed next }

def Reading.placed (passed next : List Char) (r : Reading) : Reading :=
  ⟨r.cursor.placed passed next, r.captures.map (Capture.placed passed next)⟩

theorem Reading.capture?_placed (r : Reading) (group : Nat) :
    (r.placed passed next).capture? group =
      (r.capture? group).map (Capture.placed passed next) :=
  List.find?_map

namespace Pattern

/-- Whether the pattern reads none of the marks, and asks for nothing around it but edges of words, to
which the marks do not belong. -/
def fencedBy (marks : List Char) : Pattern → Bool
  | empty => true
  | one k | many k _ _ _ => marks.all (!k.admits ·)
  | seq a b | alt a b | ifGroup _ a b => a.fencedBy marks && b.fencedBy marks
  | group _ body | atomic body | ahead _ body => body.fencedBy marks
  | loop body least most greed =>
    least == 0 && most == some 1 && greed == .greedy && body.fencedBy marks
  | edge (.wordEdge asciiOnly inside) => !inside && marks.all (!CharKind.word.admits asciiOnly ·)
  | edge _ | behind _ _ _ | again _ _ => false

variable {p : Pattern} {marks : List Char} {k : CharClass}

theorem not_admits_of_mem (h : marks.all (!k.admits ·) = true) (hnext : ∀ c ∈ next.head?, c ∈ marks) :
    ∀ c ∈ next.head?, k.admits c = false := by
  intro c hc
  simpa using List.all_eq_true.1 h c (hnext c hc)

theorem endsChar_placed (h : ∀ c ∈ next.head?, k.admits c = false) (least : Nat)
    (most : Option Nat) (greed : Greed) (r : Reading) :
    endsChar k least most greed (r.placed passed next) =
      (endsChar k least most greed r).map (Reading.placed passed next) := by
  have hread := Cursor.readExactly?_placed passed h least r.cursor
  rw [endsChar, Reading.placed, hread, endsChar]
  cases r.cursor.readExactly? k.admits least with
  | none => rfl
  | some c =>
      have hnearest := Cursor.nearest_placed passed h c.before c.after c.index
        (most.map (· - least))
      simp only [Option.map_some, Cursor.placed]
      rw [hnearest]
      cases greed with
      | greedy =>
          rw [← List.map_reverse, List.map_map, List.map_map]
          rfl
      | lazy =>
          rw [List.map_map, List.map_map]
          rfl
      | possessive =>
          rw [← List.map_reverse, ← List.map_take, List.map_map, List.map_map]
          rfl

/-- Where a mark stands the edge of a word is that of the text alone. -/
theorem isAt_placed_wordEdge {asciiOnly : Bool} {c : Cursor}
    (hpassed : ∀ ch ∈ passed.head?, CharKind.word.admits asciiOnly ch = false)
    (hnext : ∀ ch ∈ next.head?, CharKind.word.admits asciiOnly ch = false) :
    (c.placed passed next).isAt (.wordEdge asciiOnly false) = c.isAt (.wordEdge asciiOnly false) := by
  have hbefore : (c.before ++ passed).head?.any (CharKind.word.admits asciiOnly) =
      c.before.head?.any (CharKind.word.admits asciiOnly) := by
    cases c.before with
    | cons ch before => rfl
    | nil =>
        cases passed with
        | nil => rfl
        | cons ch passed => exact hpassed ch rfl
  have hafter : (c.after ++ next).head?.any (CharKind.word.admits asciiOnly) =
      c.after.head?.any (CharKind.word.admits asciiOnly) := by
    cases c.after with
    | cons ch after => rfl
    | nil =>
        cases next with
        | nil => rfl
        | cons ch next => exact hnext ch rfl
  have hedge : ∀ c : Cursor, c.isAt (.wordEdge asciiOnly false) =
      (c.before.head?.any (CharKind.word.admits asciiOnly) !=
        c.after.head?.any (CharKind.word.admits asciiOnly)) := by
    intro c
    rw [Cursor.isAt]
    cases c.before <;> cases c.after <;> simp
  rw [hedge, hedge, Cursor.placed, hbefore, hafter]

/-- A fenced pattern runs between marks as it does alone. -/
theorem ends_placed (h : p.fencedBy marks = true) (hpassed : ∀ c ∈ passed.head?, c ∈ marks)
    (hnext : ∀ c ∈ next.head?, c ∈ marks) (r : Reading) :
    p.ends (r.placed passed next) = (p.ends r).map (Reading.placed passed next) := by
  induction p generalizing r with
  | empty => rfl
  | one k =>
      rw [fencedBy] at h
      have hstop := not_admits_of_mem h hnext
      obtain ⟨⟨before, after, index⟩, captures⟩ := r
      cases after with
      | nil =>
          cases next with
          | nil => rfl
          | cons d next => simp [Reading.placed, Cursor.placed, ends, hstop d rfl]
      | cons c after =>
          simp only [Reading.placed, Cursor.placed, List.cons_append, ends]
          split
          · simp [Reading.placed, Cursor.placed, Nat.add_right_comm]
          · rfl
  | seq a b iha ihb =>
      rw [fencedBy, Bool.and_eq_true] at h
      simp only [ends, iha h.1, List.flatMap_map, List.map_flatMap, ihb h.2]
  | alt a b iha ihb =>
      rw [fencedBy, Bool.and_eq_true] at h
      rw [ends, ends, iha h.1, ihb h.2, List.map_append]
  | group index body ih =>
      rw [fencedBy] at h
      rw [ends, ends, ih h, List.map_map, List.map_map]
      rfl
  | many k least most greed =>
      rw [fencedBy] at h
      exact endsChar_placed (not_admits_of_mem h hnext) least most greed r
  | loop body least most greed ih =>
      simp only [fencedBy, Bool.and_eq_true, beq_iff_eq] at h
      obtain ⟨⟨⟨rfl, rfl⟩, rfl⟩, hbody⟩ := h
      change (opt body).ends _ = ((opt body).ends r).map _
      rw [ends_opt, ends_opt, ih hbody, List.map_append]
      rfl
  | edge place =>
      cases place with
      | wordEdge asciiOnly inside =>
          rw [fencedBy, Bool.and_eq_true, Bool.not_eq_true'] at h
          obtain ⟨rfl, hmarks⟩ := h
          have hword : ∀ c ∈ marks, CharKind.word.admits asciiOnly c = false := by
            simpa using hmarks
          rw [ends, ends, Reading.placed, isAt_placed_wordEdge
            (fun c hc => hword c (hpassed c hc)) (fun c hc => hword c (hnext c hc))]
          split <;> rfl
      | textStart | textEnd | lastLineEnd | lineStart | lineEnd => cases h
  | ahead wanted body ih =>
      rw [fencedBy] at h
      rw [ends, ends, ih h, List.head?_map]
      cases (body.ends r).head? <;> cases wanted <;> rfl
  | behind wanted width body => cases h
  | atomic body ih =>
      rw [fencedBy] at h
      rw [ends, ends, ih h, List.map_take]
  | again index rule => cases h
  | ifGroup index yes no ihyes ihno =>
      rw [fencedBy, Bool.and_eq_true] at h
      rw [ends, ends, Reading.capture?_placed, Option.isSome_map]
      split
      · exact ihyes h.1 r
      · exact ihno h.2 r

/-! ## Matches -/

def Match.placed (passed next : List Char) (m : Match) : Match :=
  ⟨m.start.placed passed next, m.reading.placed passed next⟩

/-- What the groups of a match have read does not depend on what stands in front. -/
theorem Match.group?_placed_front (m : Match) (passed : List Char) :
    (m.placed passed []).group? = m.group? := by
  funext group
  rw [Match.group?, Match.placed, Reading.capture?_placed, Option.map_map, Match.group?]
  congr 1
  funext capture
  exact Cursor.upTo_placed_front passed capture.start capture.stop

theorem Match.Within.group?_placed_back {text : List Char} {m : Match} (h : m.Within text)
    (next : List Char) : (m.placed [] next).group? = m.group? := by
  funext group
  rw [Match.group?, Match.placed, Reading.capture?_placed, Option.map_map, Match.group?]
  cases hcapture : m.reading.capture? group with
  | none => rfl
  | some capture =>
      obtain ⟨hstart, hstop⟩ := h.reading.captures capture (List.mem_of_find?_eq_some hcapture)
      have hlength : capture.stop.before.length + capture.stop.after.length =
          capture.start.before.length + capture.start.after.length := by
        have hchars := congrArg List.length (hstop.chars.trans hstart.chars.symm)
        simpa using hchars
      have hle : capture.stop.index ≤ capture.start.index + capture.start.after.length := by
        rw [hstart.index, hstop.index]
        omega
      exact congrArg some (Cursor.upTo_placed_back next hle)

theorem matchAt?_placed (h : p.fencedBy marks = true) (hpassed : ∀ c ∈ passed.head?, c ∈ marks)
    (hnext : ∀ c ∈ next.head?, c ∈ marks) (c : Cursor) :
    p.matchAt? (c.placed passed next) = (p.matchAt? c).map (Match.placed passed next) := by
  rw [matchAt?_eq, matchAt?_eq, Option.map_map]
  have hends := ends_placed h hpassed hnext ⟨c, []⟩
  rw [Reading.placed, List.map_nil] at hends
  rw [hends, List.head?_map, Option.map_map]
  rfl

section Search

variable {before after front back : List Char} {index free : Nat} {c d : Char} {m : Match}

theorem matchesAt_eq_toList (hp : 0 < p.ownWidth.least) (c : Cursor) :
    p.matchesAt c = (p.matchAt? c).toList := by
  cases hmatch : p.matchAt? c with
  | none => rw [matchesAt, hmatch]; rfl
  | some m =>
      have hmatch' := hmatch
      rw [matchAt?_eq, Option.map_eq_some_iff] at hmatch'
      obtain ⟨r, hr, rfl⟩ := hmatch'
      have hmoved := advances_ends p ⟨c, []⟩ r (List.mem_of_head? hr)
      simp only at hmoved
      exact matchesAt_of_moved hmatch (by simp only; omega)

theorem matchesFrom_cons_of_lt (h : index < free) :
    p.matchesFrom before index free (c :: after) =
      p.matchesFrom (c :: before) (index + 1) free after := by
  rw [matchesFrom, if_pos h]

theorem matchesFrom_cons_of_none (hfree : free ≤ index)
    (h : p.matchAt? ⟨before, c :: after, index⟩ = none) :
    p.matchesFrom before index free (c :: after) =
      p.matchesFrom (c :: before) (index + 1) free after := by
  have hat : p.matchesAt ⟨before, c :: after, index⟩ = [] := by rw [matchesAt, h]
  rw [matchesFrom, if_neg hfree.not_gt]
  simp only [hat]

theorem matchesFrom_cons_of_some (hp : 0 < p.ownWidth.least) (hfree : free ≤ index)
    (h : p.matchAt? ⟨before, c :: after, index⟩ = some m) :
    p.matchesFrom before index free (c :: after) =
      m :: p.matchesFrom (c :: before) (index + 1) m.reading.cursor.index after := by
  have hat : p.matchesAt ⟨before, c :: after, index⟩ = [m] := by
    rw [matchesAt_eq_toList hp, h]
    rfl
  rw [matchesFrom, if_neg hfree.not_gt]
  simp only [hat]
  rfl

/-- Where the match before has ended does not matter any more once it is passed. -/
theorem matchesFrom_eq_of_le (hp : 0 < p.ownWidth.least) (hfree : free ≤ index) :
    p.matchesFrom before index free after = p.matchesFrom before index 0 after := by
  induction after generalizing before index with
  | nil => rw [matchesFrom, matchesFrom, if_neg hfree.not_gt, if_neg (Nat.not_lt_zero index)]
  | cons c after ih =>
      cases hmatch : p.matchAt? ⟨before, c :: after, index⟩ with
      | none =>
          rw [matchesFrom_cons_of_none hfree hmatch,
            matchesFrom_cons_of_none (Nat.zero_le index) hmatch, ih (Nat.le_succ_of_le hfree)]
      | some m =>
          rw [matchesFrom_cons_of_some hp hfree hmatch,
            matchesFrom_cons_of_some hp (Nat.zero_le index) hmatch]

theorem mem_matchesAt_of_matchAt? (hp : 0 < p.ownWidth.least) {c : Cursor}
    (h : p.matchAt? c = some m) : m ∈ p.matchesAt c := by
  rw [matchesAt_eq_toList hp, h]
  exact List.mem_singleton_self m

/-- A match ends in the text. -/
theorem index_le_of_matchAt? (hp : 0 < p.ownWidth.least)
    (h : p.matchAt? ⟨before, after, before.length⟩ = some m) :
    m.reading.cursor.index ≤ before.length + after.length := by
  have hplace : (⟨before, after, before.length⟩ : Cursor).Of (before.reverse ++ after) := ⟨rfl, rfl⟩
  have hstop :=
    (within_matchesAt p hplace m (mem_matchesAt_of_matchAt? hp h)).reading.cursor.index_le
  rwa [List.length_append, List.length_reverse] at hstop

/-- At the end of a text there is nothing left to read. -/
theorem matchAt?_end (hp : 0 < p.ownWidth.least) (before : List Char) :
    p.matchAt? ⟨before, [], before.length⟩ = none := by
  rw [Option.eq_none_iff_forall_ne_some]
  intro m hm
  have hmoved : before.length < m.reading.cursor.index :=
    lt_index_of_mem_matchesAt hp (mem_matchesAt_of_matchAt? hp hm)
  exact hmoved.not_ge (index_le_of_matchAt? hp hm)

/-- A text behind a mark is searched as a text of its own. -/
theorem matchesFrom_placed_front (hp : 0 < p.ownWidth.least) (h : p.fencedBy marks = true)
    (hpassed : ∀ c ∈ passed.head?, c ∈ marks) :
    p.matchesFrom (before ++ passed) (index + passed.length) (free + passed.length) after =
      (p.matchesFrom before index free after).map (Match.placed passed []) := by
  have hplaced : ∀ before after index,
      p.matchAt? ⟨before ++ passed, after, index + passed.length⟩ =
        (p.matchAt? ⟨before, after, index⟩).map (Match.placed passed []) := by
    intro before after index
    have hmatch : p.matchAt? ((⟨before, after, index⟩ : Cursor).placed passed []) = _ :=
      matchAt?_placed h hpassed (by simp) ⟨before, after, index⟩
    rwa [Cursor.placed, List.append_nil] at hmatch
  induction after generalizing before index free with
  | nil =>
      rw [matchesFrom, matchesFrom, matchesAt_eq_toList hp, matchesAt_eq_toList hp, hplaced]
      by_cases hlt : index < free
      · rw [if_pos hlt, if_pos (Nat.add_lt_add_right hlt _)]
        rfl
      · rw [if_neg hlt, if_neg (by omega)]
        cases p.matchAt? ⟨before, [], index⟩ <;> rfl
  | cons c after ih =>
      have hmore : ∀ free, p.matchesFrom (c :: (before ++ passed)) (index + passed.length + 1)
          (free + passed.length) after =
            (p.matchesFrom (c :: before) (index + 1) free after).map (Match.placed passed []) := by
        intro free
        rw [Nat.add_right_comm, ← List.cons_append]
        exact ih
      by_cases hlt : index < free
      · rw [matchesFrom_cons_of_lt hlt, matchesFrom_cons_of_lt (by omega), hmore]
      · have hfree := Nat.not_lt.1 hlt
        have hfree' : free + passed.length ≤ index + passed.length := Nat.add_le_add_right hfree _
        have hmatch := hplaced before (c :: after) index
        cases hfound : p.matchAt? ⟨before, c :: after, index⟩ with
        | none =>
            rw [hfound] at hmatch
            rw [matchesFrom_cons_of_none hfree hfound, matchesFrom_cons_of_none hfree' hmatch, hmore]
        | some m =>
            rw [hfound] at hmatch
            rw [matchesFrom_cons_of_some hp hfree hfound, matchesFrom_cons_of_some hp hfree' hmatch,
              List.map_cons, ← hmore]
            rfl

/-- Up to a mark the matches are those of a text that ends there, and behind it the search begins
anew. -/
theorem matchesFrom_append_cons (hp : 0 < p.ownWidth.least) (h : p.fencedBy marks = true)
    (hd : d ∈ marks) (hfree : free ≤ before.length + after.length) :
    p.matchesFrom before before.length free (after ++ d :: back) =
      (p.matchesFrom before before.length free after).map (Match.placed [] (d :: back)) ++
        p.matchesFrom (d :: (after.reverse ++ before)) (before.length + after.length + 1) 0 back := by
  have hplaced : ∀ before after : List Char,
      p.matchAt? ⟨before, after ++ d :: back, before.length⟩ =
        (p.matchAt? ⟨before, after, before.length⟩).map (Match.placed [] (d :: back)) := by
    intro before after
    have hmatch : p.matchAt? ((⟨before, after, before.length⟩ : Cursor).placed [] (d :: back)) = _ :=
      matchAt?_placed h (by simp) (by simpa using hd) ⟨before, after, before.length⟩
    rwa [Cursor.placed, List.append_nil] at hmatch
  induction after generalizing before free with
  | nil =>
      have hmatch := hplaced before []
      rw [matchAt?_end hp] at hmatch
      have hnone : p.matchesFrom before before.length free [] = [] := by
        rw [matchesFrom, matchesAt_eq_toList hp, matchAt?_end hp]
        exact ite_self _
      have hpassed : free ≤ before.length := hfree
      rw [hnone, List.nil_append, matchesFrom_cons_of_none hpassed hmatch,
        matchesFrom_eq_of_le hp (Nat.le_succ_of_le hpassed)]
      rfl
  | cons c after ih =>
      rw [List.length_cons] at hfree
      have hmore : ∀ free ≤ before.length + (after.length + 1),
          p.matchesFrom (c :: before) (before.length + 1) free (after ++ d :: back) =
            (p.matchesFrom (c :: before) (before.length + 1) free after).map
                (Match.placed [] (d :: back)) ++
              p.matchesFrom (d :: ((c :: after).reverse ++ before))
                (before.length + (after.length + 1) + 1) 0 back := by
        intro free hfree
        have hlength : (c :: before).length + after.length = before.length + (after.length + 1) := by
          rw [List.length_cons]
          omega
        have hrest := @ih (c :: before) free (hlength ▸ hfree)
        rw [hlength, List.length_cons] at hrest
        rw [hrest, List.reverse_cons, List.append_assoc, List.singleton_append]
      rw [List.length_cons, List.cons_append]
      by_cases hlt : before.length < free
      · rw [matchesFrom_cons_of_lt hlt, matchesFrom_cons_of_lt hlt, hmore free hfree]
      · have hfree' := Nat.not_lt.1 hlt
        have hmatch := hplaced before (c :: after)
        cases hfound : p.matchAt? ⟨before, c :: after, before.length⟩ with
        | none =>
            rw [hfound] at hmatch
            rw [matchesFrom_cons_of_none hfree' hfound]
            exact (matchesFrom_cons_of_none hfree' hmatch).trans (hmore free hfree)
        | some m =>
            rw [hfound] at hmatch
            have hstop := index_le_of_matchAt? hp hfound
            rw [List.length_cons] at hstop
            rw [matchesFrom_cons_of_some hp hfree' hfound, List.map_cons, List.cons_append,
              ← hmore _ hstop]
            exact matchesFrom_cons_of_some hp hfree' hmatch

/-- A fenced pattern matches in the two parts of a text beside a mark as in two texts. -/
theorem allMatches_append_cons (hp : 0 < p.ownWidth.least) (h : p.fencedBy marks = true)
    (hd : d ∈ marks) (front back : List Char) :
    p.allMatches (front ++ d :: back) =
      (p.allMatches front).map (Match.placed [] (d :: back)) ++
        (p.allMatches back).map (Match.placed (d :: front.reverse) []) := by
  have hfront : p.matchesFrom [] 0 0 (front ++ d :: back) = _ :=
    @matchesFrom_append_cons p marks [] front back 0 d hp h hd (Nat.zero_le _)
  have hback : p.matchesFrom ([] ++ d :: front.reverse) (0 + (d :: front.reverse).length)
      (0 + (d :: front.reverse).length) back = _ :=
    matchesFrom_placed_front hp h (by simpa using hd)
  rw [List.length_nil, List.append_nil, Nat.zero_add] at hfront
  rw [List.nil_append, Nat.zero_add, List.length_cons, List.length_reverse,
    matchesFrom_eq_of_le hp le_rfl] at hback
  rw [allMatches, allMatches, allMatches, hfront, hback]

end Search

theorem matchesFrom_eq_nil_iff {before after : List Char} {index free : Nat}
    (hp : 0 < p.ownWidth.least) (hfree : free ≤ index) :
    p.matchesFrom before index free after = [] ↔ p.findFrom? before index after = none := by
  induction after generalizing before index with
  | nil =>
      rw [matchesFrom, if_neg hfree.not_gt, matchesAt_eq_toList hp, findFrom?,
        Option.toList_eq_nil_iff]
  | cons c after ih =>
      rw [findFrom?]
      cases hmatch : p.matchAt? ⟨before, c :: after, index⟩ with
      | none =>
          rw [matchesFrom_cons_of_none hfree hmatch, ih (Nat.le_succ_of_le hfree)]
      | some m => simp [matchesFrom_cons_of_some hp hfree hmatch]

/-- A pattern has no match in a text in which it does not occur, and in no other. -/
theorem allMatches_eq_nil_iff (hp : 0 < p.ownWidth.least) (text : List Char) :
    p.allMatches text = [] ↔ p.occursIn text = false := by
  rw [allMatches, matchesFrom_eq_nil_iff hp le_rfl, occursIn, find?, Option.isSome_eq_false_iff,
    Option.isNone_iff_eq_none]

/-- A fenced pattern occurs beside a mark if it occurs on one side of it. -/
theorem occursIn_append_cons {d : Char} (hp : 0 < p.ownWidth.least) (h : p.fencedBy marks = true)
    (hd : d ∈ marks) (front back : List Char) :
    p.occursIn (front ++ d :: back) = false ↔ p.occursIn front = false ∧ p.occursIn back = false := by
  rw [← allMatches_eq_nil_iff hp, allMatches_append_cons hp h hd, List.append_eq_nil_iff,
    List.map_eq_nil_iff, List.map_eq_nil_iff, allMatches_eq_nil_iff hp, allMatches_eq_nil_iff hp]

/-- What the matches have captured, beside a mark. -/
theorem group?_allMatches_append_cons {d : Char} (hp : 0 < p.ownWidth.least)
    (h : p.fencedBy marks = true) (hd : d ∈ marks) (front back : List Char) :
    (p.allMatches (front ++ d :: back)).map Match.group? =
      (p.allMatches front).map Match.group? ++ (p.allMatches back).map Match.group? := by
  rw [allMatches_append_cons hp h hd, List.map_append, List.map_map, List.map_map]
  congr 1
  · apply List.map_congr_left
    intro m hm
    exact (within_allMatches p front m hm).group?_placed_back (d :: back)
  · apply List.map_congr_left
    intro m _
    exact m.group?_placed_front (d :: front.reverse)

/-- What a fenced pattern captures in a text is what it captures in the pieces between the marks. -/
theorem group?_allMatches_splitOn {d : Char} (hp : 0 < p.ownWidth.least)
    (h : p.fencedBy [d] = true) (text : List Char) :
    (p.allMatches text).map Match.group? =
      (Text.splitOn d text).flatMap fun piece => (p.allMatches piece).map Match.group? := by
  induction hlength : text.length using Nat.strong_induction_on generalizing text with
  | _ length ih =>
      by_cases hmem : d ∈ text
      · obtain ⟨first, rest, rfl, hfirst⟩ := List.eq_append_cons_of_mem hmem
        have hshorter : rest.length < length := by
          rw [← hlength, List.length_append, List.length_cons]
          omega
        rw [Text.splitOn_append_cons, Text.splitOn_of_notMem hfirst, List.flatMap_append,
          List.flatMap_singleton, group?_allMatches_append_cons hp h (List.mem_singleton_self d),
          ih rest.length hshorter rest rfl]
      · rw [Text.splitOn_of_notMem hmem, List.flatMap_singleton]

end Pattern

end EnvAudit
