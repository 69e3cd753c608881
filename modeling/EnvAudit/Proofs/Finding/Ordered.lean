import EnvAudit.Proofs.Finding.View

/-!
# Findings in the order of files

Findings of one file after another tell the files of a name in that order.  No entry among them is
empty, and no suggestion is without severity.
-/

namespace EnvAudit

open Keyed

namespace Keyed

variable {K : Type*} [DecidableEq K] {known news : List K} {key : K}

theorem appendNew_sublist_singleton (h : known.Sublist [key]) : (appendNew known key).Sublist [key] := by
  rcases List.sublist_singleton.1 h with rfl | rfl
  · exact List.Sublist.refl _
  · rw [appendNew_of_mem (List.mem_singleton_self key)]

theorem mem_foldl_appendNew : key ∈ news.foldl appendNew known ↔ key ∈ known ∨ key ∈ news := by
  induction news generalizing known with
  | nil => simp
  | cons new news ih => rw [List.foldl_cons, ih, mem_appendNew, List.mem_cons, or_assoc]

/-- New keys stand behind the known ones in their order. -/
theorem foldl_appendNew_of_disjoint (hdisjoint : known.Disjoint news) (hnodup : news.Nodup) :
    news.foldl appendNew known = known ++ news := by
  induction news generalizing known with
  | nil => exact (List.append_nil known).symm
  | cons key news ih =>
      obtain ⟨hkey, hnews⟩ := List.nodup_cons.1 hnodup
      rw [List.disjoint_cons_right] at hdisjoint
      rw [List.foldl_cons, appendNew_of_notMem hdisjoint.1, ih _ hnews, List.append_assoc,
        List.singleton_append]
      rw [List.disjoint_append_left, List.singleton_disjoint]
      exact ⟨hdisjoint.2, hkey⟩

end Keyed

namespace Entry

variable {e e' : Entry} {s : Suggestion} {file : String} {files more : List String}

theorem usage_foldl_addUsage (paths : List String) (e : Entry) :
    (paths.foldl addUsage e).usage = paths.foldl appendNew e.usage := by
  induction paths generalizing e with
  | nil => rfl
  | cons path paths ih => rw [List.foldl_cons, List.foldl_cons, ih, usage_addUsage]

theorem files_foldl_addSuggestion (news : List Suggestion) (e : Entry) :
    (news.foldl addSuggestion e).files = (news.map (·.file)).foldl appendNew e.files := by
  induction news generalizing e with
  | nil => rfl
  | cons new news ih => rw [List.foldl_cons, List.map_cons, List.foldl_cons, ih, files_addSuggestion]

theorem usage_merge (e other : Entry) :
    (e.merge other).usage = other.usage.foldl appendNew e.usage := by
  rw [merge, usage_foldl_addSuggestion, usage_foldl_addUsage]

theorem files_merge (e other : Entry) :
    (e.merge other).files = other.files.foldl appendNew e.files := by
  rw [merge, files_foldl_addSuggestion, files, files, suggested_foldl_addUsage]
  rfl

/-- Every suggestion of the entry has a severity. -/
def Rated (e : Entry) : Prop := ∀ s ∈ e.suggested, s.severity.isSome = true

theorem isSome_severity_combine {old new : Suggestion} (h : old.severity.isSome = true) :
    (old.combine new).severity.isSome = true := by
  obtain ⟨severity, hseverity⟩ := Option.isSome_iff_exists.1 h
  rw [Suggestion.combine, hseverity]
  cases new.severity <;> rfl

theorem Rated.addSuggestion (h : e.Rated) (hs : s.severity.isSome = true) : (e.addSuggestion s).Rated := by
  rw [Rated] at h ⊢
  rw [Entry.addSuggestion]
  generalize e.suggested = suggested at h
  induction suggested with
  | nil => simpa [record] using hs
  | cons old known ih =>
      obtain ⟨hold, hknown⟩ := List.forall_mem_cons.1 h
      rw [record]
      split
      · exact List.forall_mem_cons.2 ⟨isSome_severity_combine hold, hknown⟩
      · exact List.forall_mem_cons.2 ⟨hold, ih hknown⟩

theorem Rated.addUsage (h : e.Rated) (file : String) : (e.addUsage file).Rated := by
  rwa [Rated, suggested_addUsage]

theorem Rated.merge (h : e.Rated) (h' : e'.Rated) : (e.merge e').Rated := by
  have hused : (e'.usage.foldl Entry.addUsage e).Rated := by
    rwa [Rated, suggested_foldl_addUsage]
  rw [Entry.merge]
  rw [Rated] at h'
  generalize e'.suggested = news at h'
  generalize e'.usage.foldl Entry.addUsage e = known at hused
  induction news generalizing known with
  | nil => exact hused
  | cons new news ih =>
      obtain ⟨hnew, hnews⟩ := List.forall_mem_cons.1 h'
      exact ih hnews _ (hused.addSuggestion hnew)

/-- The entry tells of files in their order, with a severity wherever it suggests. -/
structure Follows (files : List String) (e : Entry) : Prop where
  usage : e.usage.Sublist files
  suggested : e.files.Sublist files
  rated : e.Rated

theorem follows_empty (files : List String) : Follows files {} :=
  ⟨List.nil_sublist _, List.nil_sublist _, nofun⟩

theorem Follows.addUsage (h : e.Follows [file]) : (e.addUsage file).Follows [file] where
  usage := by
    rw [usage_addUsage]
    exact appendNew_sublist_singleton h.usage
  suggested := by
    rw [files, suggested_addUsage]
    exact h.suggested
  rated := h.rated.addUsage file

theorem Follows.addSuggestion (h : e.Follows [s.file]) (hs : s.severity.isSome = true) :
    (e.addSuggestion s).Follows [s.file] where
  usage := h.usage
  suggested := by
    rw [files_addSuggestion]
    exact appendNew_sublist_singleton h.suggested
  rated := h.rated.addSuggestion hs

/-- What is told of other files comes behind what was told. -/
theorem Follows.merge (h : e.Follows files) (h' : e'.Follows more) (hnodup : (files ++ more).Nodup) :
    (e.merge e').Follows (files ++ more) where
  usage := by
    have hall := h.usage.append h'.usage
    obtain ⟨-, hnews, hdisjoint⟩ := List.nodup_append'.1 (hnodup.sublist hall)
    rw [usage_merge, foldl_appendNew_of_disjoint hdisjoint hnews]
    exact hall
  suggested := by
    have hall := h.suggested.append h'.suggested
    obtain ⟨-, hnews, hdisjoint⟩ := List.nodup_append'.1 (hnodup.sublist hall)
    rw [files_merge, foldl_appendNew_of_disjoint hdisjoint hnews]
    exact hall
  rated := h.rated.merge h'.rated

/-- The entry tells of some file. -/
def IsTold (e : Entry) : Prop := e.usage ≠ [] ∨ e.suggested ≠ []

theorem isTold_addUsage (e : Entry) (file : String) : (e.addUsage file).IsTold := by
  refine .inl (List.ne_nil_of_mem (a := file) ?_)
  rw [usage_addUsage, mem_appendNew]
  exact .inr rfl

theorem isTold_addSuggestion (e : Entry) (s : Suggestion) : (e.addSuggestion s).IsTold := by
  refine .inr fun hnil => ?_
  have hmem : s.file ∈ (e.addSuggestion s).files := by
    rw [files_addSuggestion, mem_appendNew]
    exact .inr rfl
  rw [files, hnil] at hmem
  cases hmem

theorem isTold_iff : e.IsTold ↔ ∃ file, file ∈ e.usage ∨ file ∈ e.files := by
  have hfiles : e.suggested ≠ [] ↔ e.files ≠ [] := not_congr List.map_eq_nil_iff.symm
  simp only [IsTold, hfiles, ne_eq, List.eq_nil_iff_forall_not_mem, not_forall, not_not, exists_or]

/-- What one of two entries tells is told when they are put together. -/
theorem IsTold.merge (h : e.IsTold ∨ e'.IsTold) : (e.merge e').IsTold := by
  simp only [isTold_iff, mem_usage_merge, files_merge, mem_foldl_appendNew] at h ⊢
  rcases h with ⟨file, hfile⟩ | ⟨file, hfile⟩
  · exact ⟨file, hfile.imp .inl .inl⟩
  · exact ⟨file, hfile.imp .inr .inr⟩

end Entry

namespace Findings

variable {f g : Findings} {s : Suggestion} {name file : String} {files more : List String}

/-- All entries tell of files in their order, and none is empty. -/
structure Follows (files : List String) (f : Findings) : Prop where
  wellFormed : f.WellFormed
  entry : ∀ name, (f.get name).Follows files
  isTold : ∀ name ∈ f.names, (f.get name).IsTold

theorem follows_empty (files : List String) : Follows files .empty :=
  ⟨wellFormed_empty, fun _ => Entry.follows_empty files, nofun⟩

theorem Follows.modify (h : f.Follows files) {change : Entry → Entry}
    (hformed : (change (f.get name)).WellFormed) (hfollows : (change (f.get name)).Follows files)
    (htold : (change (f.get name)).IsTold) : (f.modify name change).Follows files where
  wellFormed := h.wellFormed.modify name hformed
  entry other := by
    by_cases heq : name = other
    · subst heq
      rwa [get_modify_self]
    · rw [get_modify_of_ne f heq]
      exact h.entry other
  isTold other hother := by
    by_cases heq : name = other
    · subst heq
      rwa [get_modify_self]
    · rw [get_modify_of_ne f heq]
      rw [names_modify, mem_appendNew] at hother
      exact h.isTold other (hother.resolve_right fun h => heq h.symm)

theorem Follows.addUsage (h : f.Follows [file]) (name : String) :
    (f.addUsage name file).Follows [file] :=
  h.modify ((h.wellFormed.entry name).addUsage file) (h.entry name).addUsage (Entry.isTold_addUsage _ _)

theorem Follows.addSuggestion (h : f.Follows [s.file]) (name : String)
    (hs : s.severity.isSome = true) : (f.addSuggestion name s).Follows [s.file] :=
  h.modify ((h.wellFormed.entry name).addSuggestion s) ((h.entry name).addSuggestion hs)
    (Entry.isTold_addSuggestion _ _)

/-- What is found in other files comes behind what was found. -/
theorem Follows.merge (h : f.Follows files) (h' : g.Follows more) (hnodup : (files ++ more).Nodup) :
    (f.merge g).Follows (files ++ more) where
  wellFormed := h.wellFormed.merge g
  entry name := by
    rw [get_merge h'.wellFormed]
    exact (h.entry name).merge (h'.entry name) hnodup
  isTold name hname := by
    rw [get_merge h'.wellFormed]
    exact .merge ((mem_names_merge.1 hname).imp (h.isTold name) (h'.isTold name))

end Findings

end EnvAudit
