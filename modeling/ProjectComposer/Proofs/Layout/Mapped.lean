import ProjectComposer.Proofs.Layout.Spelled
import ProjectComposer.Proofs.Path.LiteralDirectory

/-!
Files under mappings. A file without category that no pattern matches stays as it is. Otherwise the
first pattern that matches gives it a category and takes its own literal directory, in which the
file always lies, off the path; nothing else is lost, so files that one pattern maps stay apart.
-/
namespace ProjectComposer
set_option autoImplicit false
open ProjectComposer.Path

variable {f g : File} {m : Mappings} {path pattern : String} {c : Category}

/-! ## First matches -/

/-- The first pattern that matches a path, with its category. -/
def Mappings.FirstMatch (m : Mappings) (path pattern : String) (c : Category) : Prop :=
  ∃ before after, m = before ++ (pattern, c) :: after ∧
    (∀ e ∈ before, matchGlob path e.1 = false) ∧ matchGlob path pattern = true

theorem Mappings.find?_eq_some :
    m.find? path = some (pattern, c) ↔ m.FirstMatch path pattern c := by
  rw [find?, List.find?_eq_some_iff_append, FirstMatch]
  constructor
  · rintro ⟨hmatch, before, after, hm, hbefore⟩
    exact ⟨before, after, hm, fun e he => by simpa using hbefore e he, hmatch⟩
  · rintro ⟨before, after, hm, hbefore, hmatch⟩
    exact ⟨hmatch, before, after, hm, fun e he => by simpa using hbefore e he⟩

theorem Mappings.FirstMatch.matches (h : m.FirstMatch path pattern c) :
    matchGlob path pattern = true :=
  m.matchGlob_of_find? (find?_eq_some.mpr h)

theorem Mappings.find?_eq_none : m.find? path = none ↔ ∀ e ∈ m, matchGlob path e.1 = false := by
  rw [find?, List.find?_eq_none]
  simp only [Bool.not_eq_true]

/-! ## Directories taken off -/

/-- Inside the directory the path goes on with `r`; every path lies in the empty directory. -/
def LeadsTo (directory : List Char) (path r : String) : Prop :=
  path.toList = if directory = [] then r.toList else directory ++ '/' :: r.toList

theorem LeadsTo.unique {directory : List Char} {path path' r : String}
    (h : LeadsTo directory path r) (h' : LeadsTo directory path' r) : path = path' :=
  String.toList_injective (h.trans h'.symm)

theorem leadsTo_pathBelow {directory : List Char}
    (h : directory ≠ [] → ∃ rest, path.toList = directory ++ '/' :: rest) :
    LeadsTo directory path (pathBelow directory path) := by
  unfold LeadsTo pathBelow
  by_cases hnil : directory = []
  · rw [if_pos hnil, if_neg fun hboth => hboth.1 hnil]
  · obtain ⟨rest, hpath⟩ := h hnil
    have hbegins : (directory ++ ['/']).isPrefixOf path.toList = true := by
      rw [List.isPrefixOf_iff_prefix, hpath]
      exact ⟨rest, List.append_assoc _ _ _⟩
    rw [if_neg hnil, if_pos ⟨hnil, hbegins⟩, String.toList_ofList, hpath, List.append_cons,
      List.drop_left' (by simp), List.append_assoc, List.singleton_append]

/-- What a pattern matches lies in its literal directory. -/
theorem File.leadsTo_of_matchGlob (h : matchGlob f.mappedPath pattern = true) :
    LeadsTo (literalDirectory pattern) f.mappedPath
      (pathBelow (literalDirectory pattern) f.mappedPath) := by
  refine leadsTo_pathBelow fun hne => ?_
  have hbelow := exists_below_of_matchGlob h hne
  rwa [forwardSlashes_mappedPath] at hbelow

/-! ## Mapped files -/

namespace File

theorem mapped_of_firstMatch (hf : f.category = none)
    (h : m.FirstMatch f.mappedPath pattern c) : f.mapped m =
      ⟨pathBelow (literalDirectory pattern) f.mappedPath, f.content, some c⟩ :=
  mapped_of_some hf (Mappings.find?_eq_some.mpr h)

/-- A file that no pattern matches is left as it is. The first pattern that matches gives a file its
category and the path on which its literal directory goes on, so of two files with different paths
that have the same first pattern the paths stay different. -/
theorem mapped_firstMatch (hf : f.category = none) (m : Mappings) :
    ((∀ e ∈ m, matchGlob f.mappedPath e.1 = false) → f.mapped m = f) ∧
    (∀ pattern c, m.FirstMatch f.mappedPath pattern c → ∃ r, f.mapped m = ⟨r, f.content, some c⟩ ∧
      LeadsTo (literalDirectory pattern) f.mappedPath r) ∧
    ∀ g : File, g.category = none → ∀ pattern c, m.FirstMatch f.mappedPath pattern c →
      m.FirstMatch g.mappedPath pattern c → f.mappedPath ≠ g.mappedPath →
      (f.mapped m).path ≠ (g.mapped m).path := by
  refine ⟨fun h => mapped_of_none hf (Mappings.find?_eq_none.mpr h), fun pattern c h => ?_, ?_⟩
  · exact ⟨_, mapped_of_firstMatch hf h, leadsTo_of_matchGlob h.matches⟩
  · intro g hg pattern c h h' hne hpaths
    rw [mapped_of_firstMatch hf h, mapped_of_firstMatch hg h'] at hpaths
    have hbelow : pathBelow (literalDirectory pattern) f.mappedPath =
        pathBelow (literalDirectory pattern) g.mappedPath := hpaths
    have hleads := leadsTo_of_matchGlob h.matches
    rw [hbelow] at hleads
    exact hne (hleads.unique (leadsTo_of_matchGlob h'.matches))

/-- The second of three patterns is the first one that matches two spellings of hooks. -/
theorem mapped_firstMatch_hooks :
    let f : File := ⟨".\\src\\hooks/a.ts", "x", none⟩
    let g : File := ⟨"src/hooks/b/a.ts", "y", none⟩
    let m : Mappings :=
      [("src/*.ts", .frontendLib), ("src/hooks/**", .frontendHooks), ("**/a.ts", .frontendApp)]
    f.category = none ∧ g.category = none ∧
      m.FirstMatch f.mappedPath "src/hooks/**" .frontendHooks ∧
      m.FirstMatch g.mappedPath "src/hooks/**" .frontendHooks ∧
      (∃ r, f.mapped m = ⟨r, "x", some .frontendHooks⟩ ∧
        LeadsTo "src/hooks".toList f.mappedPath r) ∧
      (f.mapped m).path ≠ (g.mapped m).path := by
  intro f g m
  have hf : m.FirstMatch f.mappedPath "src/hooks/**" .frontendHooks :=
    ⟨[("src/*.ts", .frontendLib)], [("**/a.ts", .frontendApp)], rfl, by decide +kernel,
      by decide +kernel⟩
  have hg : m.FirstMatch g.mappedPath "src/hooks/**" .frontendHooks :=
    ⟨[("src/*.ts", .frontendLib)], [("**/a.ts", .frontendApp)], rfl, by decide +kernel,
      by decide +kernel⟩
  have hne : f.mappedPath ≠ g.mappedPath := by decide +kernel
  obtain ⟨-, hmapped, hapart⟩ := mapped_firstMatch (f := f) rfl m
  obtain ⟨r, hr, hleads⟩ := hmapped _ _ hf
  have hdirectory : literalDirectory "src/hooks/**" = "src/hooks".toList := by decide +kernel
  exact ⟨rfl, rfl, hf, hg, ⟨r, hr, hdirectory ▸ hleads⟩, hapart g rfl _ _ hf hg hne⟩

end File
end ProjectComposer
