import EnvAudit.Proofs.FileSystem.Budget
import EnvAudit.Proofs.Finding.Alike
import EnvAudit.Proofs.FileSystem.Resolve
import EnvAudit.Proofs.Language.Placed
import EnvAudit.Proofs.TreeScan.Exact

/-!
# A tree in another place

A scan of a tree finds the same wherever the tree lies and however the way to it is spelled.  Only the
files that it tells begin with another path.  The links in the tree have to lead to the same from there:
the system counts those on the way to the tree as well, and follows no more than a fixed number of them.
-/

namespace EnvAudit

open TreeScan

/-! ## The spelling of files below a directory -/

namespace Path

variable {dir dir' : Path} {names more : List String}

/-- What stands in front of the names below a directory when they are spelled. -/
def lead (dir : Path) : String :=
  if dir.parts = [] then dir.root.spelling else dir.toString ++ "/"

end Path

/-! ## One file under two names -/

namespace FileScan

variable {ρ : FileRel} {engine : Engine} {fs fs' : FileSystem} {p q : Path}

theorem value_scanText (engine : Engine) (language : Language) (file : String)
    (text : List Char) :
    (scanText engine language file text).value =
      ((scored language (Source.code text language.comments language.markup)).map fun c =>
          (judge engine c).value).foldl (recordJudged file)
        ((Usage.namesIn (Source.code text language.comments language.markup)).foldl
          (fun findings name => findings.addUsage name file) .empty) := by
  simp only [scanText, Logged.value_bind, Logged.value_pure, Logged.value_mapM]

theorem foundAt_of_bytes?_eq_none (h : fs.bytes? p = none) : foundAt engine fs p = .empty := by
  rw [foundAt]
  cases Language.ofPath? p with
  | none => rfl
  | some language =>
      rw [FileSystem.bytes?] at h
      cases hread : fs.read p with
      | ok bytes => simp [hread, Except.toOption] at h
      | error cause => cases cause <;> simp only [scanFile, hread, Logged.value_bind, Logged.value_pure]

theorem foundAt_of_read {language : Language} {bytes : ByteArray}
    (hlanguage : Language.ofPath? p = some language) (hread : fs.read p = .ok bytes) :
    foundAt engine fs p = (scanText engine language p.toString
      (Text.unifyNewlines (Text.Utf8.decodeLossy bytes))).value := by
  rw [foundAt, hlanguage]
  simp only [scanFile, hread, Logged.value_bind, Logged.value_pure]

end FileScan

/-- The error, told of other paths. -/
def FileError.mapPath (φ : String → String) : FileError → FileError
  | .fault cause path => .fault cause (φ path)
  | .linkLoop path => .linkLoop (φ path)
  | .nullCharacter => .nullCharacter
  | .notText => .notText

/-! ## One walk from two places -/

namespace TreeScan

variable {ρ : FileRel} {engine : Engine} {fs fs' : FileSystem} {dir dir' p q : Path}
variable {skips : String → Bool} {leadsToDir leadsToDir' : Path → Except FileError Bool}
variable {entries entries' : List (String × Node)} {name : String} {node : Node}
variable {φ : String → String} {met met' : List Visit}

/-- Two paths to one thing that a walk reaches, each from its own directory. -/
def Meets (skips : String → Bool) (entries : List (String × Node)) (dir dir' p q : Path) : Prop :=
  ∃ names node, Leads skips entries names node ∧ p = dir.descend names ∧ q = dir'.descend names

/-- What is asked about links is answered alike from two places, and refused alike. -/
def SameLinks (φ : String → String) (skips : String → Bool) (entries : List (String × Node))
    (leadsToDir leadsToDir' : Path → Except FileError Bool) (dir dir' : Path) : Prop :=
  ∀ names target, Leads skips entries names (.link target) →
    leadsToDir' (dir'.descend names) = (leadsToDir (dir.descend names)).mapError (·.mapPath φ)

theorem Meets.inside {inner : List (String × Node)} (hskip : skips name = false)
    (h : Meets skips inner (dir.child name) (dir'.child name) p q) :
    Meets skips [(name, .dir inner)] dir dir' p q := by
  obtain ⟨names, node, hleads, rfl, rfl⟩ := h
  exact ⟨name :: names, node, .inside (List.mem_singleton_self _) hskip hleads,
    (dir.descend_cons name names).symm, (dir'.descend_cons name names).symm⟩

theorem SameLinks.inside {inner : List (String × Node)} (hskip : skips name = false)
    (h : SameLinks φ skips [(name, .dir inner)] leadsToDir leadsToDir' dir dir') :
    SameLinks φ skips inner leadsToDir leadsToDir' (dir.child name) (dir'.child name) := by
  intro names target hleads
  have hlink := h (name :: names) target (.inside (List.mem_singleton_self _) hskip hleads)
  rwa [Path.descend_cons, Path.descend_cons] at hlink

/-- The same visit from two places, for files that are related by `meets`. -/
inductive SameVisit (φ : String → String) (meets : Path → Path → Prop) : Visit → Visit → Prop
  | skipped (p q : Path) : SameVisit φ meets (.skipped p) (.skipped q)
  | file {p q : Path} (h : meets p q) : SameVisit φ meets (.file p) (.file q)
  | refused (cause : FileError) : SameVisit φ meets (.refused cause) (.refused (cause.mapPath φ))

theorem SameVisit.imp {meets meets' : Path → Path → Prop} {visit visit' : Visit}
    (h : SameVisit φ meets visit visit') (himp : ∀ p q, meets p q → meets' p q) :
    SameVisit φ meets' visit visit' := by
  cases h with
  | skipped p q => exact .skipped p q
  | file h => exact .file (himp _ _ h)
  | refused cause => exact .refused cause

mutual

theorem forall₂_visits (dir dir' : Path) (name : String) : (node : Node) →
    SameLinks φ skips [(name, node)] leadsToDir leadsToDir' dir dir' →
      List.Forall₂ (SameVisit φ (Meets skips [(name, node)] dir dir'))
        (visits leadsToDir skips (dir.child name) node)
        (visits leadsToDir' skips (dir'.child name) node)
  | .dir inner, h => by
    rw [visits, visits, Path.name_child, Path.name_child]
    cases hskip : skips name with
    | true => exact .cons (.skipped _ _) .nil
    | false =>
        have hinner := forall₂_visitsIn (dir.child name) (dir'.child name) inner (h.inside hskip)
        exact hinner.imp fun _ _ hvisit => hvisit.imp fun _ _ hmeets => hmeets.inside hskip
  | .link target, h => by
    have hentry : Leads skips [(name, .link target)] [name] (.link target) :=
      .entry (List.mem_singleton_self _)
    have hlink := h [name] target hentry
    rw [Path.descend_singleton, Path.descend_singleton] at hlink
    rw [visits, visits, hlink]
    cases leadsToDir (dir.child name) with
    | error cause => exact .cons (.refused cause) .nil
    | ok leads =>
        cases leads with
        | true => exact .nil
        | false => exact .cons (.file ⟨[name], _, hentry, rfl, rfl⟩) .nil
  | .file _, _ | .locked, _ =>
    .cons (.file ⟨[name], _, .entry (List.mem_singleton_self _), rfl, rfl⟩) .nil

/-- A walk comes upon the same things in the same order from both places. -/
theorem forall₂_visitsIn (dir dir' : Path) : (entries : List (String × Node)) →
    SameLinks φ skips entries leadsToDir leadsToDir' dir dir' →
      List.Forall₂ (SameVisit φ (Meets skips entries dir dir')) (visitsIn leadsToDir skips dir entries)
        (visitsIn leadsToDir' skips dir' entries)
  | [], _ => .nil
  | (name, node) :: rest, h => by
    have hfirst := forall₂_visits dir dir' name node fun names target hleads =>
      h names target (leads_cons_iff.2 (.inl hleads))
    have hrest := forall₂_visitsIn dir dir' rest fun names target hleads =>
      h names target (leads_cons_iff.2 (.inr hleads))
    rw [visitsIn, visitsIn]
    refine List.rel_append (hfirst.imp fun _ _ hvisit => hvisit.imp ?_)
      (hrest.imp fun _ _ hvisit => hvisit.imp ?_)
    · rintro _ _ ⟨names, found, hleads, rfl, rfl⟩
      exact ⟨names, found, leads_cons_iff.2 (.inl hleads), rfl, rfl⟩
    · rintro _ _ ⟨names, found, hleads, rfl, rfl⟩
      exact ⟨names, found, leads_cons_iff.2 (.inr hleads), rfl, rfl⟩

end

end TreeScan

namespace Scanner

variable {fs fs' : FileSystem} {dir dir' p q : Path} {entries entries' : List (String × Node)}

end Scanner

end EnvAudit
