import EnvAudit.Proofs.FileScan.Facts
import EnvAudit.Proofs.Pattern.Within
import EnvAudit.Proofs.Source
import EnvAudit.Proofs.Text.Newline

/-!
# Which names a file suggests

A file suggests the names of its scored candidates.  Such a name is a piece of the text of the file,
so there is no return in it.
-/

namespace EnvAudit

theorem Candidate.name_ofMatch_infix {text : List Char} {m : Pattern.Match}
    (h : m.Within text) : (Candidate.ofMatch m).name.toList <:+: text := by
  rw [Candidate.ofMatch, String.toList_ofList]
  cases hread : m.group? 1 with
  | none => exact List.nil_infix
  | some read => exact h.group?_infix hread

/-- The name of a candidate is a piece of the text. -/
theorem Language.name_infix {language : Language} {text : List Char} {c : Candidate}
    (h : c ∈ (language.candidatesIn text).flatten) : c.name.toList <:+: text := by
  obtain ⟨found, hfound, hc⟩ := List.mem_flatten.1 h
  obtain ⟨p, -, rfl⟩ := List.mem_map.1 hfound
  obtain ⟨m, hm, rfl⟩ := List.mem_map.1 hc
  exact Candidate.name_ofMatch_infix (Pattern.within_allMatches p text m hm)

namespace FileScan

variable {engine : Engine} {fs : FileSystem} {p : Path} {name : String}

/-- The file at a path suggests a name. -/
def Suggests (engine : Engine) (fs : FileSystem) (p : Path) (name : String) : Prop :=
  ((foundAt engine fs p).get name).suggested ≠ []

theorem suggests_iff :
    Suggests engine fs p name ↔ ∃ s, .suggested name s ∈ fileFacts engine fs p :=
  (holds_foundAt engine fs p).suggested_ne_nil_iff

/-- A suggested name is that of a scored candidate. -/
theorem mem_textFacts_suggested {language : Language} {file : String} {text : List Char}
    {s : Suggestion} (h : .suggested name s ∈ textFacts engine language file text) :
    ∃ c ∈ scored language (Source.code text language.comments language.markup),
      c.name = name := by
  rw [textFacts, Finset.mem_union, Finset.mem_biUnion, Finset.mem_biUnion] at h
  rcases h with ⟨used, -, h⟩ | ⟨c, hc, h⟩
  · simp at h
  · rw [candidateFacts] at h
    split at h
    · simp at h
    · rw [Finset.mem_singleton, Fact.suggested.injEq] at h
      exact ⟨c, List.mem_toFinset.1 hc, h.1.symm⟩

/-- What a file suggests depends on nothing but what is read there. -/
theorem Suggests.congr {fs' : FileSystem} (h : Suggests engine fs p name)
    (hread : fs.read p = fs'.read p) : Suggests engine fs' p name := by
  rw [suggests_iff] at h ⊢
  rwa [fileFacts, ← hread]

theorem Suggests.read (h : Suggests engine fs p name) :
    ∃ language bytes, Language.ofPath? p = some language ∧ fs.read p = .ok bytes ∧
      ∃ s, .suggested name s ∈ textFacts engine language p.toString
        (Text.unifyNewlines (Text.Utf8.decodeLossy bytes)) := by
  obtain ⟨s, hs⟩ := suggests_iff.1 h
  rw [fileFacts] at hs
  split at hs
  · exact ⟨_, _, ‹_›, ‹_›, s, hs⟩
  · simp at hs

/-- There is no return in a suggested name. -/
theorem Suggests.noReturn (h : Suggests engine fs p name) : '\r' ∉ name.toList := by
  obtain ⟨language, bytes, -, -, s, hs⟩ := h.read
  obtain ⟨c, hc, rfl⟩ := mem_textFacts_suggested hs
  intro hreturn
  have hcode := (Language.name_infix (List.mem_filter.1 hc).1).subset hreturn
  exact Text.notMem_unifyNewlines _ ((Source.code_sublist _ _ _).subset hcode)

end FileScan

end EnvAudit
