import EnvAudit.FileScan
import EnvAudit.Proofs.Finding.Facts

/-!
# The facts of a file

Scanning a text records one fact for each environment read and one for each candidate that is scored.
The findings of a file are those of its facts, and a file that cannot be read has none.
-/

namespace EnvAudit

namespace Logged

instance : LawfulMonad Logged :=
  LawfulMonad.mk' Logged (fun x => by simp [Functor.map])
    (fun x f => by simp [pure, bind])
    (fun x f g => by simp [bind, List.append_assoc])

theorem value_mapM {α β : Type} (f : α → Logged β) (l : List α) :
    (l.mapM f).value = l.map fun a => (f a).value := by
  induction l with
  | nil => rfl
  | cons a l ih => rw [List.mapM_cons, value_bind, value_bind, value_pure, ih, List.map_cons]

end Logged

/-- Findings gather the facts that each step adds. -/
theorem Findings.Holds.foldl {α : Type} [DecidableEq α] {step : Findings → α → Findings}
    {factsOf : α → Facts} {l : List α}
    (hstep : ∀ x ∈ l, ∀ f facts, f.Holds facts → (step f x).Holds (facts ∪ factsOf x))
    {f : Findings} {facts : Facts} (h : f.Holds facts) :
    (l.foldl step f).Holds (facts ∪ l.toFinset.biUnion factsOf) := by
  induction l generalizing f facts with
  | nil => simpa using h
  | cons x l ih =>
      have hx := hstep x List.mem_cons_self f facts h
      have hrest := ih (fun y hy => hstep y (List.mem_cons_of_mem x hy)) hx
      rwa [List.toFinset_cons, Finset.biUnion_insert, ← Finset.union_assoc]

namespace FileScan

/-- The facts that a scored candidate of a file comes to. -/
def candidateFacts (engine : Engine) (file : String) (c : Candidate) : Facts :=
  let literal := c.initializer.bind Literal.text?
  match engine.score c.name literal with
  | none => ∅
  | some severity => {.suggested c.name { file, value := literal, severity := some severity }}

theorem value_judge (engine : Engine) (c : Candidate) :
    (judge engine c).value =
      { name := c.name, literal := c.initializer.bind Literal.text?,
        severity := engine.score c.name (c.initializer.bind Literal.text?) } := by
  simp only [judge, Logged.value_bind, Engine.value_judge, Logged.value_pure]

/-- The facts that a text of a file shows. -/
def textFacts (engine : Engine) (language : Language) (file : String) (text : List Char) : Facts :=
  let code := Source.code text language.comments language.markup
  (Usage.namesIn code).toFinset.biUnion (fun name => {.used name file}) ∪
    (scored language code).toFinset.biUnion (candidateFacts engine file)

theorem holds_scanText (engine : Engine) (language : Language) (file : String)
    (text : List Char) :
    (scanText engine language file text).value.Holds (textFacts engine language file text) := by
  let code := Source.code text language.comments language.markup
  have hused : ((Usage.namesIn code).foldl (fun f name => Findings.addUsage f name file)
      Findings.empty).Holds
        (∅ ∪ (Usage.namesIn code).toFinset.biUnion fun name => {.used name file}) := by
    refine Findings.holds_empty.foldl fun name _ f facts h => ?_
    exact h.merge (Findings.holds_fact (.used name file))
  have hjudged : ∀ c : Candidate, ∀ (f : Findings) (facts : Facts), f.Holds facts →
      (recordJudged file f (judge engine c).value).Holds
        (facts ∪ candidateFacts engine file c) := by
    intro c f facts h
    rw [value_judge, recordJudged, candidateFacts]
    cases engine.score c.name (c.initializer.bind Literal.text?) with
    | none => exact h.merge Findings.holds_empty
    | some severity => exact h.merge (Findings.holds_fact (.suggested c.name _))
  rw [Finset.empty_union] at hused
  have hall := hused.foldl (l := scored language code) fun c _ => hjudged c
  simp only [scanText, Logged.value_bind, Logged.value_pure, Logged.value_mapM, List.foldl_map]
  exact hall

/-- The findings of the file at a path on its own.  There are none if the path belongs to no
language or the file cannot be read. -/
def foundAt (engine : Engine) (fs : FileSystem) (path : Path) : Findings :=
  match Language.ofPath? path with
  | none => .empty
  | some language =>
    match (scanFile engine fs path language).value with
    | .ok (some findings) => findings
    | _ => .empty

/-- The facts that the file at a path shows. -/
def fileFacts (engine : Engine) (fs : FileSystem) (path : Path) : Facts :=
  match Language.ofPath? path, fs.read path with
  | some language, .ok bytes =>
    textFacts engine language path.toString (Text.unifyNewlines (Text.Utf8.decodeLossy bytes))
  | _, _ => ∅

theorem holds_foundAt (engine : Engine) (fs : FileSystem) (path : Path) :
    (foundAt engine fs path).Holds (fileFacts engine fs path) := by
  rw [foundAt, fileFacts]
  cases Language.ofPath? path with
  | none => exact Findings.holds_empty
  | some language =>
      cases hread : fs.read path with
      | ok bytes =>
          simp only [scanFile, hread, Logged.value_bind, Logged.value_pure]
          exact holds_scanText engine language _ _
      | error cause =>
          cases cause <;> simp only [scanFile, hread, Logged.value_bind, Logged.value_pure] <;>
            exact Findings.holds_empty

end FileScan

end EnvAudit
