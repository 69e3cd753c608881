import EnvAudit.Proofs.Finding.Facts
import EnvAudit.Proofs.Finding.Ordered

/-!
# Findings only grow

Whatever is added to recorded findings, what they list stays in its place: names, uses and
suggestions that are new come behind the known ones, in the order in which they are first met.  The
suggestion for a file can only become more severe, and its value only less.  Findings may also be
merged into themselves, where the loop walks over the lists that it adds to; each of its rounds adds
what is there already, so nothing moves under it.
-/

namespace EnvAudit

open Keyed

namespace Keyed

variable {K : Type*} [DecidableEq K]

/-- The keys that are not known, each where it is first met. -/
def firstMet (known news : List K) : List K := (news.filter (· ∉ known)).eraseDups

theorem foldl_appendNew_eq (known news : List K) :
    news.foldl appendNew known = known ++ firstMet known news := by
  induction news generalizing known with
  | nil => exact (List.append_nil known).symm
  | cons key news ih =>
      rw [List.foldl_cons, ih]
      by_cases hmem : key ∈ known
      · rw [appendNew_of_mem hmem, firstMet, firstMet, List.filter_cons_of_neg (by simpa using hmem)]
      · rw [appendNew_of_notMem hmem, List.append_assoc, List.singleton_append, firstMet, firstMet,
          List.filter_cons_of_pos (by simpa using hmem), List.eraseDups_cons, List.filter_filter]
        congr 4
        funext other
        rw [Bool.eq_iff_iff]
        simp [not_or, and_comm]

/-- What is met in two walks is met first in the one or, not known by then, in the other. -/
theorem append_firstMet_append (known news more : List K) :
    known ++ firstMet known (news ++ more) =
      known ++ firstMet known news ++ firstMet (known ++ firstMet known news) more := by
  rw [← foldl_appendNew_eq, List.foldl_append, foldl_appendNew_eq _ more, foldl_appendNew_eq]

end Keyed

/-! ## Suggestions -/

namespace Suggestion

variable {s t u : Suggestion}

/-- A suggestion for the same file that is as severe or more, and whose value is no greater. -/
structure GrowsTo (s t : Suggestion) : Prop where
  file : t.file = s.file
  severity : Severity.level s.severity ≤ Severity.level t.severity
  value : ∀ v, s.value = some v → ∃ w, t.value = some w ∧ w ≤ v

theorem GrowsTo.refl (s : Suggestion) : s.GrowsTo s := ⟨rfl, le_rfl, fun v hv => ⟨v, hv, le_rfl⟩⟩

theorem GrowsTo.trans (h : s.GrowsTo t) (h' : t.GrowsTo u) : s.GrowsTo u where
  file := h'.file.trans h.file
  severity := h.severity.trans h'.severity
  value v hv := by
    obtain ⟨w, hw, hwv⟩ := h.value v hv
    obtain ⟨x, hx, hxw⟩ := h'.value w hw
    exact ⟨x, hx, hxw.trans hwv⟩

theorem growsTo_combine (s new : Suggestion) : s.GrowsTo (s.combine new) where
  file := rfl
  severity := by
    rw [combine, Severity.level_higher?]
    exact le_sup_left
  value v hv := by
    rw [combine, hv]
    cases new.value with
    | none => exact ⟨v, rfl, le_rfl⟩
    | some w =>
        refine ⟨_, rfl, ?_⟩
        split
        · exact le_of_lt ‹w < v›
        · exact le_rfl

theorem combine_self (s : Suggestion) : s.combine s = s := by
  obtain ⟨file, value, severity⟩ := s
  have hvalue : lesser? value value = value :=
    (lesser?_eq_inf value value).trans (inf_idem (α := WithTop String) value)
  have hseverity : Severity.higher? severity severity = severity :=
    (Severity.higher?_eq_sup severity severity).trans (sup_idem (α := WithBot Severity) severity)
  rw [combine, hvalue, hseverity]

end Suggestion

/-! ## Loops over what they change -/

/-- A loop over a list that its rounds may change: each round reads the list anew at the next
position, and the loop ends behind the end of the list. -/
inductive Loop {S A : Type*} (items : S → List A) (round : A → S → S → Prop) : ℕ → S → S → Prop
  | done {i s} (hend : (items s)[i]? = none) : Loop items round i s s
  | next {i a s t u} (hitem : (items s)[i]? = some a) (hround : round a s t)
      (hrest : Loop items round (i + 1) t u) : Loop items round i s u

section Idle

variable {S A : Type*} {items : S → List A} {round : A → S → S → Prop} {s t : S}

theorem Loop.eq_of_idle {i : ℕ} (hloop : Loop items round i s t)
    (h : ∀ a ∈ items s, ∀ t, round a s t ↔ t = s) : t = s := by
  induction hloop with
  | done hend => rfl
  | next hitem hround hrest ih =>
      obtain rfl := (h _ (List.mem_of_getElem? hitem) _).1 hround
      exact ih h

/-- Rounds that change nothing can be made from any position on; the loop is built from its end, by
how much of the list is still to come. -/
theorem loop_of_idle (h : ∀ a ∈ items s, round a s s) {left i : ℕ}
    (hleft : (items s).length = i + left) : Loop items round i s s := by
  induction left generalizing i with
  | zero => exact .done (List.getElem?_eq_none hleft.le)
  | succ left ih =>
      have hitem := List.getElem?_eq_getElem (l := items s) (i := i) (by omega)
      exact .next hitem (h _ (List.mem_of_getElem? hitem)) (ih (by omega))

/-- A loop whose rounds change nothing ends, and where it began. -/
theorem loop_iff_of_idle (h : ∀ a ∈ items s, ∀ t, round a s t ↔ t = s) :
    Loop items round 0 s t ↔ t = s := by
  constructor
  · exact fun hloop => hloop.eq_of_idle h
  · rintro rfl
    exact loop_of_idle (fun a ha => (h a ha t).2 rfl) (Nat.zero_add _).symm

end Idle

namespace Entry

variable {e u : Entry} {s : Suggestion} {file : String}

theorem addUsage_of_mem (h : file ∈ e.usage) : e.addUsage file = e :=
  if_pos (List.contains_iff_mem.2 h)

theorem record_of_mem {known : List Suggestion} (hnodup : (known.map (·.file)).Nodup)
    (h : s ∈ known) : record s known = known := by
  induction known with
  | nil => cases h
  | cons old known ih =>
      obtain ⟨hold, hknown⟩ := List.nodup_cons.1 hnodup
      rcases List.mem_cons.1 h with rfl | h
      · rw [record, if_pos rfl, Suggestion.combine_self]
      · rw [record, if_neg, ih hknown h]
        exact fun heq => hold (List.mem_map.2 ⟨s, h, heq.symm⟩)

theorem addSuggestion_of_mem (he : e.WellFormed) (h : s ∈ e.suggested) : e.addSuggestion s = e := by
  rw [addSuggestion, record_of_mem he.files_nodup h]

/-- An entry is merged into itself: the loops walk over the lists that they add to. -/
def MergesItself (e u : Entry) : Prop :=
  ∃ t, Loop Entry.usage (fun file e t => t = e.addUsage file) 0 e t ∧
    Loop Entry.suggested (fun s e t => t = e.addSuggestion s) 0 t u

theorem mergesItself_iff (h : e.WellFormed) : e.MergesItself u ↔ u = e := by
  have husage : ∀ t, Loop Entry.usage (fun file e t => t = e.addUsage file) 0 e t ↔ t = e :=
    fun t => loop_iff_of_idle fun file hfile t => by rw [addUsage_of_mem hfile]
  have hsuggested : Loop Entry.suggested (fun s e t => t = e.addSuggestion s) 0 e u ↔ u = e :=
    loop_iff_of_idle fun s hs t => by rw [addSuggestion_of_mem h hs]
  simp only [MergesItself, husage, exists_eq_left, hsuggested]

theorem merge_self (h : e.WellFormed) : e.merge e = e := by
  have husage : e.usage.foldl addUsage e = e :=
    List.foldlRecOn (motive := (· = e)) e.usage addUsage rfl fun t ht file hfile => by
      rw [ht, addUsage_of_mem hfile]
  have hsuggested : e.suggested.foldl addSuggestion e = e :=
    List.foldlRecOn (motive := (· = e)) e.suggested addSuggestion rfl fun t ht s hs => by
      rw [ht, addSuggestion_of_mem h hs]
  rw [merge, husage, hsuggested]

end Entry

namespace Findings

variable {f g : Findings} {name : String}

theorem modify_of_get_eq {change : Entry → Entry} (hname : name ∈ f.names)
    (hchange : change (f.get name) = f.get name) : f.modify name change = f := by
  obtain ⟨entries⟩ := f
  suffices halter : alter change name entries = entries from congrArg Findings.mk halter
  induction entries with
  | nil => cases hname
  | cons item more ih =>
      obtain ⟨other, e⟩ := item
      by_cases heq : other = name
      · subst heq
        have hget : get ⟨(other, e) :: more⟩ other = e := by simp [get]
        rw [alter, if_pos rfl, ← hget, hchange, hget]
      · have hget : get ⟨(other, e) :: more⟩ name = get ⟨more⟩ name := by simp [get, heq]
        rw [hget] at hchange
        have hmore : name ∈ (⟨more⟩ : Findings).names :=
          (List.mem_cons.1 hname).resolve_left (Ne.symm heq)
        rw [alter, if_neg heq, ih hmore hchange]

/-- Findings are merged into themselves: the loop walks over the entries that it adds to, and merges
each of them into itself. -/
def MergesItself (f g : Findings) : Prop :=
  Loop Findings.entries
    (fun item f g => ∃ e, (f.get item.1).MergesItself e ∧ g = f.modify item.1 fun _ => e) 0 f g

/-- Nothing moves while findings are merged into themselves. -/
theorem mergesItself_iff (h : f.WellFormed) : f.MergesItself g ↔ g = f := by
  apply loop_iff_of_idle
  intro item hitem t
  simp only [Entry.mergesItself_iff (h.entry item.1), exists_eq_left]
  rw [modify_of_get_eq (List.mem_map_of_mem hitem) rfl]

theorem merge_self (h : f.WellFormed) : f.merge f = f := by
  apply List.foldlRecOn (motive := (· = f)) f.entries _ rfl
  rintro _ rfl ⟨name, e⟩ hitem
  apply modify_of_get_eq (List.mem_map_of_mem hitem)
  rw [get_of_mem h.names_nodup hitem, Entry.merge_self]
  exact get_of_mem h.names_nodup hitem ▸ h.entry name

theorem names_merge (f other : Findings) :
    (f.merge other).names = other.names.foldl appendNew f.names := by
  obtain ⟨news⟩ := other
  induction news generalizing f with
  | nil => rfl
  | cons item news ih =>
      calc
        (f.merge ⟨item :: news⟩).names =
            ((f.modify item.1 (·.merge item.2)).merge ⟨news⟩).names := rfl
        _ = (⟨news⟩ : Findings).names.foldl appendNew (appendNew f.names item.1) := by
          rw [ih, names_modify]

/-- Findings in which all is kept and where it was, with what was told since behind it. -/
structure GrowsTo (f : Findings) (told : List Findings) (g : Findings) : Prop where
  names : g.names = f.names ++ firstMet f.names (told.flatMap Findings.names)
  usage : ∀ name, (g.get name).usage =
    (f.get name).usage ++ firstMet (f.get name).usage (told.flatMap fun h => (h.get name).usage)
  files : ∀ name, (g.get name).files =
    (f.get name).files ++ firstMet (f.get name).files (told.flatMap fun h => (h.get name).files)
  suggestion : ∀ name file s, (f.get name).suggestionFor? file = some s →
    ∃ t, (g.get name).suggestionFor? file = some t ∧ s.GrowsTo t

theorem GrowsTo.refl (f : Findings) : f.GrowsTo [] f where
  names := (List.append_nil _).symm
  usage _ := (List.append_nil _).symm
  files _ := (List.append_nil _).symm
  suggestion _ _ s hs := ⟨s, hs, .refl s⟩

theorem GrowsTo.trans {h : Findings} {told more : List Findings} (hfg : f.GrowsTo told g)
    (hgh : g.GrowsTo more h) : f.GrowsTo (told ++ more) h where
  names := by rw [hgh.names, hfg.names, List.flatMap_append, append_firstMet_append]
  usage name := by rw [hgh.usage, hfg.usage, List.flatMap_append, append_firstMet_append]
  files name := by rw [hgh.files, hfg.files, List.flatMap_append, append_firstMet_append]
  suggestion name file s hs := by
    obtain ⟨t, ht, hst⟩ := hfg.suggestion name file s hs
    obtain ⟨u, hu, htu⟩ := hgh.suggestion name file t ht
    exact ⟨u, hu, hst.trans htu⟩

theorem growsTo_merge (f : Findings) {other : Findings} (h : other.WellFormed) :
    f.GrowsTo [other] (f.merge other) where
  names := by rw [names_merge, foldl_appendNew_eq, List.flatMap_singleton]
  usage name := by
    rw [get_merge h, Entry.usage_merge, foldl_appendNew_eq, List.flatMap_singleton]
  files name := by
    rw [get_merge h, Entry.files_merge, foldl_appendNew_eq, List.flatMap_singleton]
  suggestion name file s hs := by
    rw [get_merge h, Entry.suggestionFor?_merge (h.entry name), hs]
    cases (other.get name).suggestionFor? file with
    | none => exact ⟨s, rfl, .refl s⟩
    | some new => exact ⟨_, rfl, s.growsTo_combine new⟩

end Findings

/-! ## Runs of additions -/

/-- One thing that can be done to findings. -/
inductive Addition
  | touch (name : String)
  | addUsage (name file : String)
  | addSuggestion (name : String) (s : Suggestion)
  | merge (other : Recording)
  | mergeItself

namespace Addition

/-- Findings with one thing more done to them. -/
def onto (r : Recording) : Addition → Recording
  | touch name => r.touch name
  | addUsage name file => r.addUsage name file
  | addSuggestion name s => r.addSuggestion name s
  | merge other => r.merge other
  | mergeItself => r.merge r

/-- What an addition tells the findings it is made to. -/
def told (r : Recording) : Addition → Findings
  | touch name => (Fact.named name).findings
  | addUsage name file => (Fact.used name file).findings
  | addSuggestion name s => (Fact.suggested name s).findings
  | merge other => other.findings
  | mergeItself => r.findings

/-- What additions tell, one after another. -/
def allTold (r : Recording) : List Addition → List Findings
  | [] => []
  | a :: more => a.told r :: allTold (a.onto r) more

theorem wellFormed_told (r : Recording) (a : Addition) : (a.told r).WellFormed := by
  cases a with
  | touch name => exact (Findings.holds_fact (.named name)).wellFormed
  | addUsage name file => exact (Findings.holds_fact (.used name file)).wellFormed
  | addSuggestion name s => exact (Findings.holds_fact (.suggested name s)).wellFormed
  | merge other => exact other.holds.wellFormed
  | mergeItself => exact r.holds.wellFormed

/-- Every addition is a merge with what it tells. -/
theorem findings_onto (r : Recording) (a : Addition) :
    (a.onto r).findings = r.findings.merge (a.told r) := by
  cases a <;> rfl

theorem growsTo_onto (r : Recording) (a : Addition) :
    r.findings.GrowsTo [a.told r] (a.onto r).findings := by
  rw [findings_onto]
  exact r.findings.growsTo_merge (wellFormed_told r a)

theorem growsTo_foldl_onto (r : Recording) (additions : List Addition) :
    r.findings.GrowsTo (allTold r additions) (additions.foldl onto r).findings := by
  induction additions generalizing r with
  | nil => exact .refl r.findings
  | cons a additions ih => exact (growsTo_onto r a).trans (ih (a.onto r))

end Addition

/-- Recorded findings list nothing twice; whatever is done to them, what they list stays where it is
and what is new comes behind it in the order in which it is first met, and the suggestion for a file
only grows.  To merge findings into themselves while their lists are walked over comes to an end, to
the same as to merge a copy, and leaves them as they were. -/
theorem Recording.findings_grow (r : Recording) :
    r.findings.WellFormed ∧
      (∀ additions : List Addition,
        r.findings.GrowsTo (Addition.allTold r additions)
          (additions.foldl Addition.onto r).findings) ∧
      (∀ g, r.findings.MergesItself g ↔ g = (r.merge r).findings) ∧
      (r.merge r).findings = r.findings := by
  have hformed : r.findings.WellFormed := r.holds.wellFormed
  have hself : (r.merge r).findings = r.findings := Findings.merge_self hformed
  refine ⟨hformed, Addition.growsTo_foldl_onto r, fun g => ?_, hself⟩
  rw [Findings.mergesItself_iff hformed, hself]

end EnvAudit
