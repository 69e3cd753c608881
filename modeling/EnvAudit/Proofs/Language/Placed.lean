import EnvAudit.Language.Registry

/-!
# Files of one name in different places

The directories above a file can change its language, since pipelines have languages of their own.
All of these are languages of mappings, which read a file in the same way, so where a file lies makes no
difference to what is found in it.
-/

namespace EnvAudit.Language

/-- Languages that read a text in the same way, whatever they are called. -/
structure SameRules (a b : Language) : Prop where
  candidates : a.candidates = b.candidates
  comments : a.comments = b.comments
  markup : a.markup = b.markup

theorem SameRules.refl (a : Language) : a.SameRules a := ⟨rfl, rfl, rfl⟩

theorem SameRules.symm {a b : Language} (h : a.SameRules b) : b.SameRules a :=
  ⟨h.candidates.symm, h.comments.symm, h.markup.symm⟩

theorem SameRules.trans {a b c : Language} (h : a.SameRules b) (h' : b.SameRules c) :
    a.SameRules c :=
  ⟨h.candidates.trans h'.candidates, h.comments.trans h'.comments, h.markup.trans h'.markup⟩

/-- The keys of the languages of mappings. -/
def mappingKeys : List String := ["yml", "yaml", "gitlab", "azure", "github", "circleci"]

/-- A language of mappings. -/
def mapping : Language := { name := "yml", candidates := [mappingKey] }

theorem find?_mappingKeys {key : String} (h : key ∈ mappingKeys) :
    ∃ language, find? key = some language ∧ language.SameRules mapping := by
  simp only [mappingKeys, List.mem_cons, List.not_mem_nil, or_false] at h
  rcases h with rfl | rfl | rfl | rfl | rfl | rfl <;> exact ⟨_, rfl, rfl, rfl, rfl⟩

end EnvAudit.Language
