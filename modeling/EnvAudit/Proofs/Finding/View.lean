import EnvAudit.Finding
import EnvAudit.Proofs.Keyed
import EnvAudit.Proofs.SeverityOrder

/-!
# What findings hold

Findings are lists in the order of recording.  This module gives the view of them that does not see
this order: the names, and for each name the files that use it and the suggestion of each file.
Every operation has one equation per part of the view.  Recorded findings list each name, each use
and each file of a suggestion once; the operations keep this.
-/

namespace EnvAudit

open Keyed

namespace Suggestion

/-- The lesser of two optional values is their infimum where an absent value is above every other
one. -/
theorem lesser?_eq_inf (a b : WithTop String) : (lesser? a b : WithTop String) = a ⊓ b := by
  cases a with
  | top => exact (top_inf_eq b).symm
  | coe a =>
      cases b with
      | top => exact (inf_top_eq (a : WithTop String)).symm
      | coe b =>
          rcases lt_or_ge b a with hlt | hle
          · rw [inf_eq_right.2 (WithTop.coe_le_coe.2 hlt.le)]
            exact congrArg some (if_pos hlt)
          · rw [inf_eq_left.2 (WithTop.coe_le_coe.2 hle)]
            exact congrArg some (if_neg hle.not_gt)

@[simp]
theorem file_combine (old new : Suggestion) : (old.combine new).file = old.file := rfl

/-- What the suggestions of two entries for one file come to. -/
def join? : Option Suggestion → Option Suggestion → Option Suggestion
  | none, new => new
  | some old, none => some old
  | some old, some new => some (old.combine new)

@[simp]
theorem join?_none_right (s : Option Suggestion) : join? s none = s := by
  cases s <;> rfl

end Suggestion

namespace Entry

open Suggestion

/-- The files that an entry has suggestions for. -/
def files (e : Entry) : List String := e.suggested.map (·.file)

/-- An entry that lists each use and each file of a suggestion once. -/
structure WellFormed (e : Entry) : Prop where
  usage_nodup : e.usage.Nodup
  files_nodup : e.files.Nodup

theorem wellFormed_empty : WellFormed {} := ⟨List.nodup_nil, List.nodup_nil⟩

/-! ## Uses -/

@[simp]
theorem suggested_addUsage (e : Entry) (file : String) :
    (e.addUsage file).suggested = e.suggested := by
  unfold addUsage
  split <;> rfl

theorem usage_addUsage (e : Entry) (file : String) :
    (e.addUsage file).usage = appendNew e.usage file := by
  unfold addUsage appendNew
  by_cases hmem : file ∈ e.usage <;> simp [hmem]

@[simp]
theorem suggested_foldl_addUsage (paths : List String) (e : Entry) :
    (paths.foldl addUsage e).suggested = e.suggested := by
  induction paths generalizing e with
  | nil => rfl
  | cons path paths ih => rw [List.foldl_cons, ih, suggested_addUsage]

theorem mem_usage_foldl_addUsage {paths : List String} {e : Entry} {file : String} :
    file ∈ (paths.foldl addUsage e).usage ↔ file ∈ e.usage ∨ file ∈ paths := by
  induction paths generalizing e with
  | nil => simp
  | cons path paths ih =>
      rw [List.foldl_cons, ih, usage_addUsage, mem_appendNew, List.mem_cons, or_assoc]

theorem nodup_usage_foldl_addUsage {paths : List String} {e : Entry} (h : e.usage.Nodup) :
    (paths.foldl addUsage e).usage.Nodup := by
  induction paths generalizing e with
  | nil => exact h
  | cons path paths ih =>
      apply ih
      rw [usage_addUsage]
      exact nodup_appendNew h path

/-! ## Suggestions -/

theorem find?_record_self (new : Suggestion) (known : List Suggestion) :
    (record new known).find? (·.file == new.file) =
      join? (known.find? (·.file == new.file)) (some new) := by
  induction known with
  | nil => simp [record, join?]
  | cons old more ih =>
      by_cases heq : old.file = new.file
      · simp [record, heq, join?]
      · simp [record, heq, ih]

theorem find?_record_of_ne {new : Suggestion} {file : String} (hne : new.file ≠ file)
    (known : List Suggestion) :
    (record new known).find? (·.file == file) = known.find? (·.file == file) := by
  induction known with
  | nil => simp [record, hne]
  | cons old more ih =>
      by_cases heq : old.file = new.file
      · simp [record, heq, hne]
      · rw [record, if_neg heq, List.find?_cons, List.find?_cons, ih]

theorem map_file_record (new : Suggestion) (known : List Suggestion) :
    (record new known).map (·.file) = appendNew (known.map (·.file)) new.file := by
  induction known with
  | nil => rfl
  | cons old more ih =>
      by_cases heq : old.file = new.file
      · rw [record, if_pos heq, appendNew_of_mem (by simp [heq])]
        rfl
      · rw [record, if_neg heq, List.map_cons, ih, List.map_cons, appendNew_cons_of_ne heq]

@[simp]
theorem usage_addSuggestion (e : Entry) (new : Suggestion) :
    (e.addSuggestion new).usage = e.usage := rfl

theorem suggestionFor?_addSuggestion (e : Entry) (new : Suggestion) (file : String) :
    (e.addSuggestion new).suggestionFor? file =
      if new.file = file then join? (e.suggestionFor? file) (some new)
      else e.suggestionFor? file := by
  by_cases heq : new.file = file
  · subst heq
    rw [if_pos rfl]
    exact find?_record_self new e.suggested
  · rw [if_neg heq]
    exact find?_record_of_ne heq e.suggested

theorem files_addSuggestion (e : Entry) (new : Suggestion) :
    (e.addSuggestion new).files = appendNew e.files new.file :=
  map_file_record new e.suggested

@[simp]
theorem usage_foldl_addSuggestion (news : List Suggestion) (e : Entry) :
    (news.foldl addSuggestion e).usage = e.usage := by
  induction news generalizing e with
  | nil => rfl
  | cons new news ih => rw [List.foldl_cons, ih, usage_addSuggestion]

theorem suggestionFor?_foldl_addSuggestion {news : List Suggestion}
    (h : (news.map (·.file)).Nodup) (e : Entry) (file : String) :
    (news.foldl addSuggestion e).suggestionFor? file =
      join? (e.suggestionFor? file) (news.find? (·.file == file)) := by
  induction news generalizing e with
  | nil => simp
  | cons new news ih =>
      obtain ⟨hnew, hrest⟩ := List.nodup_cons.1 h
      rw [List.foldl_cons, ih hrest, suggestionFor?_addSuggestion]
      by_cases heq : new.file = file
      · have hnone : news.find? (·.file == file) = none := by
          rw [List.find?_eq_none]
          intro other hother hfile
          have hsame : other.file = new.file := (beq_iff_eq.1 hfile).trans heq.symm
          exact hnew (List.mem_map.2 ⟨other, hother, hsame⟩)
        simp [heq, hnone]
      · simp [heq]

theorem nodup_files_foldl_addSuggestion {news : List Suggestion} {e : Entry}
    (h : e.files.Nodup) : (news.foldl addSuggestion e).files.Nodup := by
  induction news generalizing e with
  | nil => exact h
  | cons new news ih =>
      apply ih
      rw [files_addSuggestion]
      exact nodup_appendNew h new.file

/-! ## Merging -/

theorem mem_usage_merge {e other : Entry} {file : String} :
    file ∈ (e.merge other).usage ↔ file ∈ e.usage ∨ file ∈ other.usage := by
  unfold merge
  rw [usage_foldl_addSuggestion, mem_usage_foldl_addUsage]

theorem suggestionFor?_merge {other : Entry} (h : other.WellFormed) (e : Entry) (file : String) :
    (e.merge other).suggestionFor? file =
      join? (e.suggestionFor? file) (other.suggestionFor? file) := by
  unfold merge
  rw [suggestionFor?_foldl_addSuggestion h.files_nodup]
  unfold suggestionFor?
  rw [suggested_foldl_addUsage]

theorem WellFormed.addUsage {e : Entry} (h : e.WellFormed) (file : String) :
    (e.addUsage file).WellFormed where
  usage_nodup := by
    rw [usage_addUsage]
    exact nodup_appendNew h.usage_nodup file
  files_nodup := by
    rw [files, suggested_addUsage]
    exact h.files_nodup

theorem WellFormed.addSuggestion {e : Entry} (h : e.WellFormed) (new : Suggestion) :
    (e.addSuggestion new).WellFormed where
  usage_nodup := h.usage_nodup
  files_nodup := by
    rw [files_addSuggestion]
    exact nodup_appendNew h.files_nodup new.file

theorem WellFormed.merge {e : Entry} (h : e.WellFormed) (other : Entry) :
    (e.merge other).WellFormed where
  usage_nodup := by
    unfold Entry.merge
    rw [usage_foldl_addSuggestion]
    exact nodup_usage_foldl_addUsage h.usage_nodup
  files_nodup := by
    apply nodup_files_foldl_addSuggestion
    rw [files, suggested_foldl_addUsage]
    exact h.files_nodup

/-- In a well-formed entry the suggestion for a file is the one that is listed. -/
theorem suggestionFor?_eq_some_iff {e : Entry} (h : e.WellFormed) {file : String}
    {s : Suggestion} : e.suggestionFor? file = some s ↔ s ∈ e.suggested ∧ s.file = file :=
  find?_eq_some_iff h.files_nodup

theorem mem_files_iff {e : Entry} {file : String} :
    file ∈ e.files ↔ (e.suggestionFor? file).isSome := by
  simp [files, suggestionFor?]

end Entry

namespace Findings

/-- The identifiers that something is recorded for. -/
def names (f : Findings) : List String := f.entries.map (·.1)

/-- Findings that list each name, and for it each use and each file of a suggestion, once. -/
structure WellFormed (f : Findings) : Prop where
  names_nodup : f.names.Nodup
  entry : ∀ name, (f.get name).WellFormed

theorem wellFormed_empty : WellFormed empty := ⟨List.nodup_nil, fun _ => Entry.wellFormed_empty⟩

theorem map_fst_alter (change : Entry → Entry) (name : String) (entries : List (String × Entry)) :
    (alter change name entries).map (·.1) = appendNew (entries.map (·.1)) name := by
  induction entries with
  | nil => rfl
  | cons item more ih =>
      by_cases heq : item.1 = name
      · rw [alter, if_pos heq, appendNew_of_mem (by simp [heq])]
        rfl
      · rw [alter, if_neg heq, List.map_cons, ih, List.map_cons, appendNew_cons_of_ne heq]

theorem names_modify (f : Findings) (name : String) (change : Entry → Entry) :
    (f.modify name change).names = appendNew f.names name :=
  map_fst_alter change name f.entries

theorem get_modify_self (f : Findings) (name : String) (change : Entry → Entry) :
    (f.modify name change).get name = change (f.get name) := by
  obtain ⟨entries⟩ := f
  unfold get modify
  induction entries with
  | nil => simp [alter]
  | cons item more ih =>
      obtain ⟨other, e⟩ := item
      by_cases heq : other = name
      · simp [alter, heq]
      · simpa [alter, heq] using ih

theorem get_modify_of_ne (f : Findings) {name other : String} (hne : name ≠ other)
    (change : Entry → Entry) : (f.modify name change).get other = f.get other := by
  obtain ⟨entries⟩ := f
  unfold get modify
  induction entries with
  | nil => simp [alter, hne]
  | cons item more ih =>
      obtain ⟨known, e⟩ := item
      by_cases heq : known = name
      · simp [alter, heq, hne]
      · by_cases hother : known = other
        · simp [alter, hother, Ne.symm hne]
        · simpa [alter, heq, hother] using ih

/-- A name without entry holds what an empty entry holds. -/
theorem get_of_notMem {f : Findings} {name : String} (h : name ∉ f.names) : f.get name = {} := by
  have hnone : f.entries.find? (·.1 == name) = none := by
    rw [List.find?_eq_none]
    intro item hitem heq
    exact h (List.mem_map.2 ⟨item, hitem, beq_iff_eq.1 heq⟩)
  rw [get, hnone]
  rfl

theorem get_of_mem {f : Findings} (h : f.names.Nodup) {name : String} {e : Entry}
    (hmem : (name, e) ∈ f.entries) : f.get name = e := by
  rw [get, (find?_eq_some_iff h).2 ⟨hmem, rfl⟩]
  rfl

theorem WellFormed.modify {f : Findings} (h : f.WellFormed) (name : String)
    {change : Entry → Entry} (hchange : (change (f.get name)).WellFormed) :
    (f.modify name change).WellFormed where
  names_nodup := by
    rw [names_modify]
    exact nodup_appendNew h.names_nodup name
  entry other := by
    by_cases heq : name = other
    · subst heq
      rw [get_modify_self]
      exact hchange
    · rw [get_modify_of_ne f heq]
      exact h.entry other

/-! ## Merging -/

/-- Merges a list of entries one after another. -/
private abbrev mergeEntries (f : Findings) (entries : List (String × Entry)) : Findings :=
  entries.foldl (fun f (name, entry) => f.modify name (·.merge entry)) f

private theorem mem_names_mergeEntries {entries : List (String × Entry)} {f : Findings}
    {name : String} :
    name ∈ (mergeEntries f entries).names ↔ name ∈ f.names ∨ name ∈ entries.map (·.1) := by
  induction entries generalizing f with
  | nil => simp
  | cons item more ih =>
      rw [mergeEntries, List.foldl_cons, ih, names_modify, mem_appendNew, List.map_cons,
        List.mem_cons, or_assoc]

private theorem get_mergeEntries {entries : List (String × Entry)}
    (h : (entries.map (·.1)).Nodup) (f : Findings) (name : String) :
    (mergeEntries f entries).get name = (f.get name).merge ((⟨entries⟩ : Findings).get name) := by
  induction entries generalizing f with
  | nil => rfl
  | cons item more ih =>
      obtain ⟨other, e⟩ := item
      obtain ⟨hother, hmore⟩ := List.nodup_cons.1 h
      rw [mergeEntries, List.foldl_cons, ih hmore]
      by_cases heq : other = name
      · subst heq
        have hnone : (⟨more⟩ : Findings).get other = {} := get_of_notMem hother
        rw [get_modify_self, hnone]
        simp [get, Entry.merge]
      · rw [get_modify_of_ne f heq]
        simp [get, heq]

theorem mem_names_merge {f other : Findings} {name : String} :
    name ∈ (f.merge other).names ↔ name ∈ f.names ∨ name ∈ other.names :=
  mem_names_mergeEntries

theorem get_merge {other : Findings} (h : other.WellFormed) (f : Findings) (name : String) :
    (f.merge other).get name = (f.get name).merge (other.get name) :=
  get_mergeEntries h.names_nodup f name

theorem WellFormed.merge {f : Findings} (h : f.WellFormed) (other : Findings) :
    (f.merge other).WellFormed := by
  unfold Findings.merge
  generalize other.entries = entries
  induction entries generalizing f with
  | nil => exact h
  | cons item more ih => exact ih (h.modify item.1 ((h.entry item.1).merge item.2))

end Findings

end EnvAudit
