import EnvAudit.Proofs.Language.Bounded
import EnvAudit.Proofs.Pattern.Groups

/-!
# What stands around a name and its value

A candidate pattern reads a name and behind it an initial value.  A read of the environment opens with
one of a few marks.  None of them stands between the name and the value, and as a rule none stands in
front of the name.  There are two exceptions: the dollar sign of a statement, and the address of a
registry, which can hold any character but a line end.
-/

namespace EnvAudit

open Pattern

/-- Group 1 has read a name that begins at a place with `S`, and group 2 a value behind it.  Between the
two no read of a variable opens, and behind the value there is no more than semicolons. -/
structure Reading.Assigns (r : Reading) (S : Cursor → Prop) (name value : Capture) : Prop where
  name? : r.capture? 1 = some name
  value? : r.capture? 2 = some value
  start : S name.start
  between : ∀ c ∈ Usage.openings, value.start.before.count c = name.stop.before.count c
  name_lt : name.start.index < name.stop.index
  apart : name.stop.index ≤ value.start.index
  value_le : value.start.index ≤ value.stop.index
  after : ∃ last, value.stop.after = last ++ r.cursor.after ∧ ∀ c ∈ last, c = ';'

namespace Language

variable {S : Cursor → Cursor → Prop} {pre a b p body post : Pattern} {r r' : Reading}

/-- Every run has read a name, and behind it nothing that opens a read. -/
def ReadsName (S : Cursor → Cursor → Prop) (p : Pattern) : Prop :=
  ∀ r, ∀ r' ∈ p.ends r, ∃ name, r'.capture? 1 = some name ∧ S r.cursor name.start ∧
    name.start.index < name.stop.index ∧ name.stop.index ≤ r'.cursor.index ∧
      ∀ c ∈ Usage.openings, r'.cursor.before.count c = name.stop.before.count c

theorem readsName (hbody : 0 < body.ownWidth.least) : ReadsName Eq (named body) := by
  intro r r' hmem
  obtain ⟨last, hlast, rfl⟩ := List.mem_map.1 hmem
  have hle := advances_ends body r last hlast
  exact ⟨⟨1, r.cursor, last.cursor⟩, rfl, rfl, (Nat.lt_add_of_pos_right hbody).trans_le hle,
    le_rfl, fun _ _ => rfl⟩

theorem ReadsName.behind (h : ReadsName Eq p) (hpre : ∀ r, ∀ r' ∈ pre.ends r, S r.cursor r'.cursor) :
    ReadsName S (pre ++ p) := by
  intro r r' hmem
  obtain ⟨mid, hmid, hend⟩ := List.mem_flatMap.1 hmem
  obtain ⟨name, hname, hstart, hrest⟩ := h mid r' hend
  exact ⟨name, hname, hstart ▸ hpre r mid hmid, hrest⟩

theorem ReadsName.seq (h : ReadsName S a) (hkeeps : b.hasGroup 1 = false)
    (havoids : ∀ c ∈ Usage.openings, b.avoids c = true) : ReadsName S (a ++ b) := by
  intro r r' hmem
  obtain ⟨mid, hmid, hend⟩ := List.mem_flatMap.1 hmem
  obtain ⟨name, hname, hstart, hlt, hapart, hbetween⟩ := h r mid hmid
  have hle := advances_ends b mid r' hend
  refine ⟨name, (keepsGroup_ends hkeeps mid r' hend).trans hname, hstart, hlt,
    hapart.trans ((Nat.le_add_right _ _).trans hle), fun c hc => ?_⟩
  exact keeps_of_avoids (havoids c hc) mid (hbetween c hc) r' hend

/-- Every run has assigned a value to a name that begins at a place related by `S`. -/
def AssignsValue (S : Cursor → Cursor → Prop) (p : Pattern) : Prop :=
  ∀ r, ∀ r' ∈ p.ends r, ∃ name value, r'.Assigns (S r.cursor) name value

theorem ReadsName.value (h : ReadsName S p) (hbody : body.hasGroup 1 = false) :
    AssignsValue S (p ++ valued body) := by
  intro r r' hmem
  obtain ⟨mid, hmid, hend⟩ := List.mem_flatMap.1 hmem
  obtain ⟨last, hlast, rfl⟩ := List.mem_map.1 hend
  obtain ⟨name, hname, hstart, hlt, hapart, hbetween⟩ := h r mid hmid
  have hvalue := advances_ends body mid last hlast
  exact ⟨name, ⟨2, mid.cursor, last.cursor⟩,
    { name? := (keepsGroup_ends hbody mid last hlast).trans hname
      value? := rfl
      start := hstart
      between := hbetween
      name_lt := hlt
      apart := hapart
      value_le := (Nat.le_add_right _ _).trans hvalue
      after := ⟨[], rfl, by simp⟩ }⟩

/-- The pattern remembers nothing and reads no more than semicolons. -/
def Closes (p : Pattern) : Prop :=
  ∀ r, ∀ r' ∈ p.ends r, r'.captures = r.captures ∧
    ∃ last, r.cursor.after = last ++ r'.cursor.after ∧ ∀ c ∈ last, c = ';'

theorem closes_semicolon : Closes (text ";") := by
  intro r r' hmem
  obtain ⟨-, _, rfl, rest, hafter, rfl⟩ := (reads_text ";" r r').1 hmem
  exact ⟨rfl, ";".toList, hafter, by simp⟩

theorem closes_edge (place : Edge) : Closes (edge place) := by
  intro r r' hmem
  obtain ⟨-, _, rfl, rest, hafter, rfl⟩ := (reads_edge place r r').1 hmem
  exact ⟨rfl, [], hafter, by simp⟩

theorem Guards.closes_ahead (h : Guards a) : Closes (Pattern.ahead true a) := by
  intro r r' hmem
  have hcaptures := (h.ahead r r' hmem).2
  rw [ends] at hmem
  split at hmem
  · obtain rfl := List.mem_singleton.1 hmem
    exact ⟨hcaptures, [], rfl, by simp⟩
  · cases hmem

theorem AssignsValue.seq (h : AssignsValue S a) (hpost : Closes post) : AssignsValue S (a ++ post) := by
  intro r r' hmem
  obtain ⟨mid, hmid, hend⟩ := List.mem_flatMap.1 hmem
  obtain ⟨name, value, hassigns⟩ := h r mid hmid
  obtain ⟨hcaptures, last, hlast, hsemicolons⟩ := hpost mid r' hend
  obtain ⟨more, hmore, hmoreSemicolons⟩ := hassigns.after
  have hsame : ∀ index, r'.capture? index = mid.capture? index := fun index => by
    rw [Reading.capture?, hcaptures]
    rfl
  refine ⟨name, value, { hassigns with
    name? := (hsame 1).trans hassigns.name?
    value? := (hsame 2).trans hassigns.value?
    after := ⟨more ++ last, by rw [hmore, hlast, List.append_assoc], ?_⟩ }⟩
  exact fun c hc => (List.mem_append.1 hc).elim (hmoreSemicolons c) (hsemicolons c)

/-! ## The patterns of the registry -/

/-- In front of the second place there are no more marks than in front of the first. -/
def Spares (marks : List Char) (c c' : Cursor) : Prop :=
  ∀ mark ∈ marks, c'.before.count mark = c.before.count mark

/-- The second place is behind a colon. -/
def BehindColon (_ c : Cursor) : Prop := c.before.head? = some ':'

theorem ReadsName.spares {marks : List Char} (h : ReadsName Eq p) : ReadsName (Spares marks) p := by
  intro r r' hmem
  obtain ⟨name, hname, hstart, hrest⟩ := h r r' hmem
  exact ⟨name, hname, fun _ _ => hstart ▸ rfl, hrest⟩

theorem ReadsName.introduced {marks : List Char} (h : ReadsName Eq p)
    (hpre : ∀ c ∈ marks, pre.avoids c = true) : ReadsName (Spares marks) (pre ++ p) :=
  h.behind fun r r' hmem c hc => keeps_of_avoids (hpre c hc) r rfl r' hmem

theorem assigns_declaration : AssignsValue (Spares Usage.openings) declaration := by
  have hend : Guards (text ";" ||| text "\n" ||| edge .textEnd) :=
    .alt (.alt (guards_text (by decide) (by decide)) (guards_text (by decide) (by decide)))
      guards_textEnd
  exact ((((readsName (by decide)).introduced (by decide)).seq rfl (by decide)).value rfl).seq hend.closes_ahead

theorem assigns_property : AssignsValue (Spares Usage.openings) property :=
  (((((readsName (by decide)).spares.seq rfl (by decide)).seq rfl (by decide)).seq rfl (by decide)).value rfl)

theorem assigns_shellExport : AssignsValue (Spares Usage.openings) shellExport :=
  (((readsName (by decide)).introduced (by decide)).seq rfl (by decide)).value rfl

theorem assigns_shellAssignment : AssignsValue (Spares Usage.openings) shellAssignment :=
  ((readsName (by decide)).spares.seq rfl (by decide)).value rfl

theorem assigns_mappingKey : AssignsValue (Spares Usage.openings) mappingKey :=
  (((readsName (by decide)).spares.seq rfl (by decide)).seq rfl (by decide)).value rfl

theorem assigns_quotedAssignment : AssignsValue (Spares Usage.openings) quotedAssignment :=
  ((readsName (by decide)).spares.seq rfl (by decide)).value rfl

theorem assigns_lineAssignment : AssignsValue (Spares Usage.openings) lineAssignment :=
  ((readsName (by decide)).spares.seq rfl (by decide)).value rfl

theorem assigns_objectMember : AssignsValue (Spares Usage.openings) objectMember :=
  ((((((readsName (by decide)).introduced (by decide)).seq rfl (by decide)).seq rfl (by decide)).seq rfl
    (by decide)).seq rfl (by decide)).value rfl

theorem assigns_statement {introduction : Pattern} {marks : List Char}
    (h : ∀ c ∈ marks, introduction.avoids c = true) :
    AssignsValue (Spares marks) (statement introduction) :=
  ((((readsName (by decide)).introduced h).seq rfl (by decide)).value rfl).seq closes_semicolon

theorem assigns_valueDeclaration : AssignsValue (Spares Usage.openings) valueDeclaration :=
  (((readsName (by decide)).introduced (by decide)).seq rfl (by decide)).value rfl

theorem assigns_shortDeclaration : AssignsValue (Spares Usage.openings) shortDeclaration :=
  ((((readsName (by decide)).spares.seq rfl (by decide)).seq rfl (by decide)).seq rfl (by decide)).value rfl

theorem assigns_imageEnv : AssignsValue (Spares Usage.openings) imageEnv :=
  ((((readsName (by decide)).introduced (by decide)).seq rfl (by decide)).value rfl).seq
    (closes_edge .lineEnd)

theorem assigns_imageArg : AssignsValue (Spares Usage.openings) imageArg :=
  (((readsName (by decide)).introduced (by decide)).seq rfl (by decide)).value rfl

theorem behindColon_of_colon {pre : Pattern} : ∀ r,
    ∀ r' ∈ (pre ++ (text ":").ignoringCase).ends r, BehindColon r.cursor r'.cursor := by
  intro r r' hmem
  obtain ⟨mid, -, hend⟩ := List.mem_flatMap.1 hmem
  obtain ⟨last, hlast, hnothing⟩ := List.mem_flatMap.1 hend
  obtain rfl := List.mem_singleton.1 hnothing
  obtain ⟨-, _, ⟨c, hc, rfl⟩, rest, -, rfl⟩ :=
    (reads_one (CharClass.anyCase (.ofChar ':')) mid r').1 hlast
  have hcolon : c ∈ [':'] := CharClass.mem_of_admits_anyCase (by decide) hc
  exact congrArg some (List.mem_singleton.1 hcolon)

/-- The address of a registry ends with a colon. -/
theorem assigns_registryToken : AssignsValue BehindColon registryToken :=
  ((((readsName (by decide)).behind behindColon_of_colon).seq rfl (by decide)).value rfl).seq
    (closes_edge .lineEnd)

theorem assigns_registryAuth : AssignsValue (Spares Usage.openings) registryAuth :=
  ((((readsName (by decide)).introduced (by decide)).seq rfl (by decide)).value rfl).seq
    (closes_edge .lineEnd)

theorem assigns_tokenKey : AssignsValue (Spares Usage.openings) tokenKey :=
  (((readsName (by decide)).spares.seq rfl (by decide)).seq rfl (by decide)).value rfl

theorem assigns_tokenAssignment : AssignsValue (Spares Usage.openings) tokenAssignment :=
  ((readsName (by decide)).spares.seq rfl (by decide)).value rfl

theorem assigns_of_mem : ∀ language ∈ registry, ∀ p ∈ language.candidates,
    p = registryToken ∨ p = statement (text "$") ∨ AssignsValue (Spares Usage.openings) p := by
  have hstring : AssignsValue (Spares Usage.openings) (statement (text "String" ++ blanks1)) :=
    assigns_statement (by decide)
  have hvar : AssignsValue (Spares Usage.openings) (statement (text "var" ++ blanks1)) :=
    assigns_statement (by decide)
  simp [registry, assigns_declaration, assigns_property, assigns_shellExport,
    assigns_shellAssignment, assigns_mappingKey, assigns_quotedAssignment, assigns_lineAssignment,
    assigns_objectMember, assigns_valueDeclaration, assigns_shortDeclaration, assigns_imageEnv,
    assigns_imageArg, assigns_registryAuth, assigns_tokenKey, assigns_tokenAssignment, hstring, hvar]

/-- What a pattern of the registry lets stand in front of the name: after the address of a registry a
colon, in a statement with a dollar sign no mark of an accessor, and otherwise nothing that opens a
read. -/
def Introduces (p : Pattern) (c c' : Cursor) : Prop :=
  p = registryToken ∧ BehindColon c c' ∨
    p = statement (text "$") ∧ Spares Usage.accessorMarks c c' ∨ Spares Usage.openings c c'

theorem AssignsValue.mono {T : Cursor → Cursor → Prop} (h : AssignsValue S p)
    (hT : ∀ c c', S c c' → T c c') : AssignsValue T p := by
  intro r r' hmem
  obtain ⟨name, value, hassigns⟩ := h r r' hmem
  exact ⟨name, value, { hassigns with start := hT _ _ hassigns.start }⟩

/-- Every pattern of the registry assigns a value to a name. -/
theorem assignsValue_of_mem {language : Language} (hlanguage : language ∈ registry)
    (hp : p ∈ language.candidates) : AssignsValue (Introduces p) p := by
  rcases assigns_of_mem language hlanguage p hp with rfl | rfl | h
  · exact assigns_registryToken.mono fun _ _ hstart => .inl ⟨rfl, hstart⟩
  · exact (assigns_statement (by decide)).mono fun _ _ hstart => .inr (.inl ⟨rfl, hstart⟩)
  · exact h.mono fun _ _ hstart => .inr (.inr hstart)

end Language

end EnvAudit
