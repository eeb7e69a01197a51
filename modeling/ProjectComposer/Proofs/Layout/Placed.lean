import ProjectComposer.Layout.Routing
import ProjectComposer.Proofs.Except
import ProjectComposer.Proofs.Layout.Directories
import ProjectComposer.Proofs.Path.Clean
import ProjectComposer.Proofs.Path.Nesting

/-!
Files in the directories of their categories. Where the directories of the parts are clean, so are
those of the categories, and a file with a category goes to its normalized path in the directory of
the category. The path is normalized once more on the way, and with it goes one guarantee: blanks at
its end are lost, and with them, where the rest of the last name is no name, the place in the
directory.
-/
namespace ProjectComposer
set_option autoImplicit false
open ProjectComposer.Path

/-! ## Clean layouts -/

namespace Layout

/-- Every part lives in a clean directory or at the root of the project. -/
structure IsClean (l : Layout) : Prop where
  frontendPath : l.frontendPath = "" ∨ Path.IsClean l.frontendPath
  frontendSrcPath : l.frontendSrcPath = "" ∨ Path.IsClean l.frontendSrcPath
  backendPath : l.backendPath = "" ∨ Path.IsClean l.backendPath
  backendSrcPath : l.backendSrcPath = "" ∨ Path.IsClean l.backendSrcPath
  contractsPath : l.contractsPath = "" ∨ Path.IsClean l.contractsPath

theorem isPlain_of_mem_fixedDirectories : ∀ p ∈ fixedDirectories, IsPlain p := by
  decide +kernel

theorem isPlain_subdirectory (c : Category) : c.subdirectory = "" ∨ IsPlain c.subdirectory := by
  cases c <;> decide +kernel

theorem IsClean.directory {l : Layout} (h : l.IsClean) (c : Category) :
    l.directory c = "" ∨ Path.IsClean (l.directory c) := by
  refine directory_induction (P := fun p => p = "" ∨ Path.IsClean p) (fun _ => isClean_join) ?_ ?_
    h.frontendPath h.frontendSrcPath (fun _ => ⟨h.backendPath, h.backendSrcPath⟩) h.contractsPath c
  · exact fun p hp => .inr (isPlain_of_mem_fixedDirectories p hp).isClean
  · exact fun c => (isPlain_subdirectory c).imp_right IsPlain.isClean

/-- Layouts are clean for plain roots, the default ones among them. -/
theorem isClean_ofNodes {roots : Roots} (hfrontend : IsPlain roots.frontend)
    (hbackend : IsPlain roots.backend) (hcontracts : IsPlain roots.contracts) (nodes : List Node)
    (usesSource : Node → Bool) : (ofNodes nodes roots usesSource).IsClean := by
  have hsrc : IsPlain "src" := by decide +kernel
  refine ⟨.inr hfrontend.isClean, ?_, .inr hbackend.isClean, .inr hsrc.isClean,
    .inr hcontracts.isClean⟩
  unfold ofNodes
  dsimp only
  split
  · exact .inr hsrc.isClean
  · exact .inl rfl

end Layout

/-! ## Files with a category -/

section Placed
variable {l : Layout} {f : File} {c : Category} {r : String}

theorem File.outputPath_of_error {e : Refusal} (he : normalize f.path = .error e) :
    f.outputPath l = .error e := by
  unfold outputPath
  rw [he]
  rfl

section Clean
variable (hclean : Path.IsClean (l.directory c)) (hf : f.category = some c)
include hclean hf

theorem File.outputPath_eq_normalize (hr : normalize f.path = .ok r) :
    f.outputPath l = normalize (l.directory c ++ "/" ++ r) := by
  unfold outputPath
  rw [hr, hf]
  change (if l.directory c = "" then pure r else normalize (join [l.directory c, r])) = _
  rw [if_neg hclean.isNormal.ne_empty, join_pair hclean.isNormal (isNormal_of_normalize hr)]

theorem File.outputPath_eq_below (hr : normalize f.path = .ok r) :
    f.outputPath l = .ok (l.directory c ++ "/" ++ r) ↔ ¬EndsBlank r := by
  rw [outputPath_eq_normalize hclean hf hr]
  exact hclean.normalize_eq_self_iff (isNormal_of_normalize hr)

/-- The final path may leave the directory, but not the first one on the way to it. -/
theorem File.head?_names_outputPath {q : String} (h : f.outputPath l = .ok q) :
    (names q).head? = (names (l.directory c)).head? := by
  obtain ⟨r, hr, -⟩ := bind_eq_ok.mp h
  have hnormal := isNormal_of_normalize hr
  rw [outputPath_eq_normalize hclean hf hr] at h
  have hlanding := ((hclean.normalize_append hnormal).1 q).mp h
  rw [hclean.names_normalize_append hnormal h, head?_landing hlanding.1]

end Clean

/-- A file with a category is refused with its path. Otherwise it goes to the normalized path in the
directory of the category, inside of it and apart from all files with other paths, unless that path
ends with a blank; then it goes to where the path leads without the blanks at its end. -/
theorem File.outputPath_categorized (hl : l.IsClean) (hf : f.category = some c)
    (hbase : l.directory c ≠ "") :
    (∀ e, normalize f.path = .error e → f.outputPath l = .error e) ∧
    (∀ r, normalize f.path = .ok r → ¬EndsBlank r →
      f.outputPath l = .ok (l.directory c ++ "/" ++ r) ∧
      IsAbove (l.directory c) (l.directory c ++ "/" ++ r) ∧
      ∀ (g : File) (s : String), g.category = some c → normalize g.path = .ok s → ¬EndsBlank s →
        g.outputPath l = f.outputPath l → s = r) ∧
    (∀ r, normalize f.path = .ok r → EndsBlank r →
      f.outputPath l ≠ .ok (l.directory c ++ "/" ++ r) ∧
      (∀ q, f.outputPath l = .ok q ↔ landing (l.directory c) r ≠ [] ∧
        q = String.ofList (Text.joinAt '/' (landing (l.directory c) r))) ∧
      (f.outputPath l = .error (.outside (l.directory c ++ "/" ++ r)) ↔
        landing (l.directory c) r = [])) := by
  have hclean : Path.IsClean (l.directory c) := (hl.directory c).resolve_left hbase
  refine ⟨fun e => outputPath_of_error, fun r hr hends => ?_, fun r hr hends => ?_⟩
  · have hfile := (outputPath_eq_below hclean hf hr).mpr hends
    refine ⟨hfile, ⟨r.toList, by simp⟩, fun g s hg hs hsends hsame => ?_⟩
    rw [hfile, (outputPath_eq_below hclean hg hs).mpr hsends, Except.ok.injEq] at hsame
    have hchars := congrArg String.toList hsame
    simp only [String.toList_append, List.append_cancel_left_eq] at hchars
    exact String.toList_injective hchars
  · refine ⟨fun hfile => (outputPath_eq_below hclean hf hr).mp hfile hends, ?_⟩
    rw [outputPath_eq_normalize hclean hf hr]
    exact hclean.normalize_append (isNormal_of_normalize hr)

end Placed

/-- A frontend without a directory for sources, and a path of many spellings: blanks, a backslash
and a colon further inside make no difference. -/
theorem File.outputPath_categorized_hook :
    let l : Layout := .ofNodes [⟨"web", "frontend-scaffold", [], none⟩] {} fun _ => false
    let f : File := ⟨" .\\hooks//x/../C:/use it.ts ", "", some .frontendLib⟩
    l.IsClean ∧ f.category = some .frontendLib ∧ l.directory .frontendLib ≠ "" ∧
      normalize f.path = .ok "hooks/C:/use it.ts" ∧ ¬EndsBlank "hooks/C:/use it.ts" ∧
      f.outputPath l = .ok "apps/web/lib/hooks/C:/use it.ts" := by
  intro l f
  have hl : l.IsClean :=
    Layout.isClean_ofNodes (by decide +kernel) (by decide +kernel) (by decide +kernel) _ _
  have hbase : l.directory .frontendLib = "apps/web/lib" := by decide +kernel
  have hne : l.directory .frontendLib ≠ "" := by simp [hbase]
  have hr : normalize f.path = .ok "hooks/C:/use it.ts" := by decide +kernel
  have hends : ¬EndsBlank "hooks/C:/use it.ts" := by
    rintro ⟨c, ⟨⟩, hblank⟩
    exact absurd hblank (by decide)
  have hplaced := (outputPath_categorized hl rfl hne).2.1 _ hr hends
  rw [hbase] at hplaced
  exact ⟨hl, rfl, hne, hr, hends, hplaced.1⟩

/-- Dots with a blank behind them make a name that leads up once the blank is gone: out of the
directory, or to the root and so nowhere. Two names that differ in a blank become one path. -/
theorem File.outputPath_climbs :
    let l : Layout := .ofNodes [] {} fun _ => true
    let up (c : Category) : File := ⟨"./.. /.", "", some c⟩
    l.IsClean ∧ normalize (up .docs).path = .ok ".. " ∧
      l.directory .contractTest = "contracts/tests" ∧
      (up .contractTest).outputPath l = .ok "contracts" ∧
      ¬IsAbove "contracts/tests" "contracts" ∧
      l.directory .docs = "docs" ∧ (up .docs).outputPath l = .error (.outside "docs/.. ") ∧
      normalize "./a /." = .ok "a " ∧ normalize "a" = .ok "a" ∧
      (⟨"./a /.", "", some .docs⟩ : File).outputPath l = .ok "docs/a" ∧
      (⟨"a", "", some .docs⟩ : File).outputPath l = .ok "docs/a" := by
  intro l up
  have hl : l.IsClean :=
    Layout.isClean_ofNodes (by decide +kernel) (by decide +kernel) (by decide +kernel) _ _
  refine ⟨hl, ?_⟩
  decide +kernel

end ProjectComposer
