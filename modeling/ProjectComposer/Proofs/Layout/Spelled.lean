import ProjectComposer.Proofs.Layout.Placed
import ProjectComposer.Proofs.Path.Glob

/-!
Spellings of a path. Files without a category are looked up among the patterns of a plugin before
their paths are normalized: of all that normalization removes, patterns see backslashes turned and
one `./` in front gone. Two spellings of a path are routed alike by every plugin exactly if no
pattern tells them apart, and without wildcards in them that is if nothing else is different.
-/
namespace ProjectComposer
set_option autoImplicit false
open ProjectComposer.Path

variable {f g : File} {m : Mappings} {l : Layout} {pattern : String} {c : Category}

theorem Mappings.matchGlob_of_find? {path : String} (h : m.find? path = some (pattern, c)) :
    matchGlob path pattern = true := by
  have hmatch := List.find?_some h
  exact hmatch

/-! ## What patterns see -/

namespace File

theorem mem_mappedPath {d : Char} (h : d ∈ f.mappedPath.toList) :
    d ∈ Text.forwardSlashes f.path.toList := by
  unfold mappedPath at h
  dsimp only at h
  split at h
  · next rest heq =>
    rw [String.toList_ofList] at h
    rw [heq]
    exact List.mem_cons_of_mem _ (List.mem_cons_of_mem _ h)
  · rwa [String.toList_ofList] at h

theorem forwardSlashes_mappedPath (f : File) :
    Text.forwardSlashes f.mappedPath.toList = f.mappedPath.toList :=
  Text.forwardSlashes_of_not_mem fun h =>
    Text.backslash_not_mem_forwardSlashes _ (mem_mappedPath h)

theorem isLiteral_mappedPath (h : IsLiteral f.path) : IsLiteral f.mappedPath := by
  intro d hd
  obtain ⟨e, he, heq⟩ := List.mem_map.mp (mem_mappedPath hd)
  split at heq
  · rw [← heq]
    decide
  · exact heq ▸ h e he

theorem matchGlob_mappedPath (h : IsLiteral pattern) : matchGlob f.mappedPath pattern = true ↔
    f.mappedPath.toList = pattern.toList ∨ f.mappedPath.toList = pattern.toList ++ ['\n'] := by
  rw [matchGlob_of_isLiteral h, forwardSlashes_mappedPath]

/-- Two texts without wildcards are told apart by one of them. -/
theorem exists_matchGlob_ne (hf : IsLiteral f.mappedPath) (hg : IsLiteral g.mappedPath)
    (hne : f.mappedPath ≠ g.mappedPath) :
    ∃ pattern, matchGlob f.mappedPath pattern ≠ matchGlob g.mappedPath pattern := by
  by_contra hall
  simp only [not_exists, not_not] at hall
  have hne' : f.mappedPath.toList ≠ g.mappedPath.toList := fun h => hne (String.toList_injective h)
  have hself : matchGlob f.mappedPath f.mappedPath = true :=
    (matchGlob_mappedPath hf).mpr (.inl rfl)
  have hself' : matchGlob g.mappedPath g.mappedPath = true :=
    (matchGlob_mappedPath hg).mpr (.inl rfl)
  have hlonger := (matchGlob_mappedPath hf).mp ((hall _).symm.trans hself)
  have hlonger' := (matchGlob_mappedPath hg).mp ((hall _).trans hself')
  -- Each would have to be the other one with a line feed at its end.
  have hlength := congrArg List.length (hlonger.resolve_left hne'.symm)
  have hlength' := congrArg List.length (hlonger'.resolve_left hne')
  rw [List.length_append, List.length_singleton] at hlength hlength'
  omega

/-! ## Mapping -/

theorem mapped_of_none (hf : f.category = none) (h : m.find? f.mappedPath = none) :
    f.mapped m = f := by
  unfold mapped
  rw [hf]
  dsimp only
  rw [h]

theorem mapped_of_some (hf : f.category = none)
    (h : m.find? f.mappedPath = some (pattern, c)) : f.mapped m =
      { f with
        path := pathBelow (literalDirectory pattern) f.mappedPath
        category := some c } := by
  unfold mapped
  rw [hf]
  dsimp only
  rw [h]

end File

/-! ## Routing alike -/

namespace File

/-- Both files have one final path, or neither has any. -/
def RoutedAlike (f g : File) (m : Mappings) (l : Layout) : Prop :=
  (f.routed m l).toOption.map (·.path) = (g.routed m l).toOption.map (·.path)

/-- Below the literal directory of a pattern both paths have one normal form, or neither has any. -/
def AlikeBelow (f g : File) (pattern : String) : Prop :=
  (normalize (pathBelow (literalDirectory pattern) f.mappedPath)).toOption =
    (normalize (pathBelow (literalDirectory pattern) g.mappedPath)).toOption

theorem routedAlike_iff_outputPath : f.RoutedAlike g m l ↔
    ((f.mapped m).outputPath l).toOption = ((g.mapped m).outputPath l).toOption := by
  have hpath : ∀ f : File, (f.routed m l).toOption.map (·.path) =
      ((f.mapped m).outputPath l).toOption := by
    intro f
    unfold routed
    dsimp only
    cases (f.mapped m).outputPath l with
    | error e => rfl
    | ok path => rfl
  rw [RoutedAlike, hpath, hpath]

/-- Of a path no more than its normal form counts. -/
theorem toOption_outputPath_congr (hcategory : f.category = g.category)
    (h : (normalize f.path).toOption = (normalize g.path).toOption) :
    (f.outputPath l).toOption = (g.outputPath l).toOption := by
  unfold outputPath
  rw [hcategory]
  cases hf : normalize f.path with
  | error e =>
    cases hg : normalize g.path with
    | error e' => rfl
    | ok r =>
      rw [hf, hg] at h
      cases h
  | ok r =>
    rw [hf] at h
    rw [toOption_eq_some.mp h.symm]

/-- A plugin that has the same pattern for both routes them alike if they are alike below it. -/
theorem routedAlike_of_find? (hf : f.category = none) (hg : g.category = none)
    (h : (normalize f.path).toOption = (normalize g.path).toOption)
    (hfind : m.find? f.mappedPath = m.find? g.mappedPath)
    (hbelow : ∀ pattern c, m.find? f.mappedPath = some (pattern, c) → f.AlikeBelow g pattern) :
    f.RoutedAlike g m l := by
  rw [routedAlike_iff_outputPath]
  cases hfound : m.find? f.mappedPath with
  | none =>
    rw [mapped_of_none hf hfound, mapped_of_none hg (hfind ▸ hfound)]
    exact toOption_outputPath_congr (hf.trans hg.symm) h
  | some e =>
    obtain ⟨pattern, c⟩ := e
    rw [mapped_of_some hf hfound, mapped_of_some hg (hfind ▸ hfound)]
    exact toOption_outputPath_congr rfl (hbelow pattern c hfound)

/-- A pattern that matches one of two files alone can take it to another place in every layout: no
path is both among the documents and among the scripts. -/
theorem exists_not_routedAlike (hf : f.category = none) (hg : g.category = none) {r : String}
    (hgr : normalize g.path = .ok r) (hmatch : matchGlob f.mappedPath pattern = true)
    (hnot : matchGlob g.mappedPath pattern = false) (l : Layout) : ∃ m, ¬f.RoutedAlike g m l := by
  by_contra hall
  simp only [not_exists, not_not] at hall
  have hout : g.outputPath l = .ok r := by
    unfold outputPath
    rw [hgr, hg]
    rfl
  have hplaced : ∀ c : Category, Path.IsClean (l.directory c) →
      (names r).head? = (names (l.directory c)).head? := by
    intro c hclean
    have hsome : Mappings.find? [(pattern, c)] f.mappedPath = some (pattern, c) := by
      simp [Mappings.find?, hmatch]
    have hnone : Mappings.find? [(pattern, c)] g.mappedPath = none := by
      simp [Mappings.find?, hnot]
    have halike := routedAlike_iff_outputPath.mp (hall [(pattern, c)])
    rw [mapped_of_some hf hsome, mapped_of_none hg hnone, hout] at halike
    exact head?_names_outputPath hclean rfl (toOption_eq_some.mp halike)
  have hdocs : IsPlain (Category.subdirectory .docs) := by decide +kernel
  have hscripts : IsPlain (Category.subdirectory .contractScripts) := by decide +kernel
  have hsame := (hplaced .docs hdocs.isClean).symm.trans (hplaced .contractScripts hscripts.isClean)
  revert hsame
  change ¬(names (Category.subdirectory .docs)).head? =
    (names (Category.subdirectory .contractScripts)).head?
  decide +kernel

theorem RoutedAlike.symm (h : f.RoutedAlike g m l) : g.RoutedAlike f m l :=
  Eq.symm h

/-- Spellings that some pattern matches apart from one another are not always routed alike. -/
theorem matchGlob_eq_of_routedAlike (hf : f.category = none) (hg : g.category = none) {r : String}
    (hfr : normalize f.path = .ok r) (hgr : normalize g.path = .ok r)
    (h : ∀ m, f.RoutedAlike g m l) (pattern : String) :
    matchGlob f.mappedPath pattern = matchGlob g.mappedPath pattern := by
  cases hfm : matchGlob f.mappedPath pattern with
  | true =>
    cases hgm : matchGlob g.mappedPath pattern with
    | true => rfl
    | false =>
      obtain ⟨m, hnot⟩ := exists_not_routedAlike hf hg hgr hfm hgm l
      exact absurd (h m) hnot
  | false =>
    cases hgm : matchGlob g.mappedPath pattern with
    | true =>
      obtain ⟨m, hnot⟩ := exists_not_routedAlike hg hf hfr hgm hfm l
      exact absurd (h m).symm hnot
    | false => rfl

/-- At the root of the project what is below a pattern is the final path. -/
theorem alikeBelow_of_routedAlike (hf : f.category = none) (hg : g.category = none)
    (h : ∀ m, f.RoutedAlike g m l) (hfm : matchGlob f.mappedPath pattern = true)
    (hgm : matchGlob g.mappedPath pattern = true) : f.AlikeBelow g pattern := by
  have hroot : ∀ path : String, normalize path =
      ({ path := path, content := "", category := some .root } : File).outputPath l := by
    intro path
    unfold outputPath
    cases normalize path with
    | error e => rfl
    | ok r => rfl
  have hfound : ∀ path : String, matchGlob path pattern = true →
      Mappings.find? [(pattern, .root)] path = some (pattern, .root) := by
    intro path hpath
    simp [Mappings.find?, hpath]
  have halike := routedAlike_iff_outputPath.mp (h [(pattern, .root)])
  rw [mapped_of_some hf (hfound _ hfm), mapped_of_some hg (hfound _ hgm)] at halike
  rw [AlikeBelow, hroot, hroot]
  exact halike

/-- In every layout, two spellings of a path are routed alike by all plugins if and only if no
pattern matches one of them alone, and below the patterns that match they still are spellings of one
path. This is so if patterns see one text; where the spellings are free of wildcards it is so only
then. -/
theorem routedAlike_spellings (hf : f.category = none) (hg : g.category = none) {r : String}
    (hfr : normalize f.path = .ok r) (hgr : normalize g.path = .ok r) (l : Layout) :
    ((∀ m, f.RoutedAlike g m l) ↔ ∀ pattern,
      matchGlob f.mappedPath pattern = matchGlob g.mappedPath pattern ∧
        (matchGlob f.mappedPath pattern = true → f.AlikeBelow g pattern)) ∧
    (f.mappedPath = g.mappedPath → ∀ m, f.RoutedAlike g m l) ∧
    (IsLiteral f.path → IsLiteral g.path → (∀ m, f.RoutedAlike g m l) →
      f.mappedPath = g.mappedPath) := by
  have hsame : (normalize f.path).toOption = (normalize g.path).toOption := by rw [hfr, hgr]
  have hiff : (∀ m, f.RoutedAlike g m l) ↔ ∀ pattern,
      matchGlob f.mappedPath pattern = matchGlob g.mappedPath pattern ∧
        (matchGlob f.mappedPath pattern = true → f.AlikeBelow g pattern) := by
    constructor
    · intro h pattern
      have hmatch := matchGlob_eq_of_routedAlike hf hg hfr hgr h pattern
      exact ⟨hmatch, fun hfm => alikeBelow_of_routedAlike hf hg h hfm (hmatch ▸ hfm)⟩
    · intro h m
      have hfind : m.find? f.mappedPath = m.find? g.mappedPath := by
        simp only [Mappings.find?, fun pattern => (h pattern).1]
      refine routedAlike_of_find? hf hg hsame hfind fun pattern c hfound => (h pattern).2 ?_
      exact m.matchGlob_of_find? hfound
  refine ⟨hiff, fun hseen => ?_, fun hliteral hliteral' h => ?_⟩
  · rw [hiff, hseen]
    exact fun pattern => ⟨rfl, fun _ => by rw [AlikeBelow, hseen]⟩
  · by_contra hne
    obtain ⟨pattern, hpattern⟩ :=
      exists_matchGlob_ne (isLiteral_mappedPath hliteral) (isLiteral_mappedPath hliteral') hne
    exact hpattern (hiff.mp h pattern).1

/-- Backslashes and one `./` in front make no difference to any plugin. -/
theorem routedAlike_spellings_backslash :
    let f : File := ⟨".\\src\\hooks/a.ts", "", none⟩
    let g : File := ⟨"src/hooks/a.ts", "", none⟩
    f.category = none ∧ g.category = none ∧ normalize f.path = .ok "src/hooks/a.ts" ∧
      normalize g.path = .ok "src/hooks/a.ts" ∧ f.mappedPath = g.mappedPath ∧
      ∀ m l, f.RoutedAlike g m l := by
  intro f g
  have hfr : normalize f.path = .ok "src/hooks/a.ts" := by decide +kernel
  have hgr : normalize g.path = .ok "src/hooks/a.ts" := by decide +kernel
  have hseen : f.mappedPath = g.mappedPath := by decide +kernel
  exact ⟨rfl, rfl, hfr, hgr, hseen,
    fun m l => (routedAlike_spellings rfl rfl hfr hgr l).2.1 hseen m⟩

/-- Of one path with a slash and the same path with two of them, a plugin takes the first one alone
to the directory of the hooks. -/
theorem not_routedAlike_doubledSlash :
    let f : File := ⟨"src//hooks/a.ts", "", none⟩
    let g : File := ⟨"src/hooks/a.ts", "", none⟩
    let m : Mappings := [("src/hooks/**", .frontendHooks)]
    let l : Layout := .ofNodes [⟨"web", "frontend-scaffold", [], none⟩] {} fun _ => true
    normalize f.path = .ok "src/hooks/a.ts" ∧ normalize g.path = .ok "src/hooks/a.ts" ∧
      f.routed m l = .ok ⟨"src/hooks/a.ts", "", none⟩ ∧
      g.routed m l = .ok ⟨"apps/web/src/hooks/a.ts", "", none⟩ ∧ ¬f.RoutedAlike g m l := by
  intro f g m l
  have hf : f.routed m l = .ok ⟨"src/hooks/a.ts", "", none⟩ := by decide +kernel
  have hg : g.routed m l = .ok ⟨"apps/web/src/hooks/a.ts", "", none⟩ := by decide +kernel
  refine ⟨by decide +kernel, by decide +kernel, hf, hg, ?_⟩
  rw [RoutedAlike, hf, hg]
  decide

end File
end ProjectComposer
