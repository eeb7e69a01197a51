import ProjectComposer.Layout.Directory

/-!
The directories of a layout. Each of them is one of a few fixed directories or joined of such and of
the directories of the parts, so a property of these that joining keeps is one of every directory.
-/
namespace ProjectComposer.Layout
set_option autoImplicit false

/-- Directories that are fixed whatever the layout, apart from those of the categories. -/
def fixedDirectories : List String :=
  ["src", "src/lib", "public", "app", "api", "lib"]

/-- Every directory has a property that the directories of the parts have, those of a backend only
if there is one, if the fixed ones have it as well and joining keeps it. -/
theorem directory_induction {P : String → Prop} {l : Layout}
    (hjoin : ∀ parts : List String, (∀ p ∈ parts, P p) → P (Path.join parts))
    (hfixed : ∀ p ∈ fixedDirectories, P p) (hsub : ∀ c : Category, P c.subdirectory)
    (hfrontend : P l.frontendPath) (hsrc : P l.frontendSrcPath)
    (hbackend : l.hasBackend = true → P l.backendPath ∧ P l.backendSrcPath)
    (hcontracts : P l.contractsPath) (c : Category) : P (l.directory c) := by
  simp only [fixedDirectories, List.forall_mem_cons] at hfixed
  obtain ⟨hsource, hsourceLib, hpublic, happ, hapi, hlib, -⟩ := hfixed
  have hroot : P l.frontendRoot := hjoin _ (by simp [hfrontend, hsrc])
  have hsubdirectory := hsub c
  unfold directory
  cases c.part with
  | frontend =>
    dsimp only
    unfold frontendDirectory
    split
    · split
      · exact hjoin _ (by simp [hfrontend, hpublic])
      · exact hjoin _ (by simp [hroot, hsubdirectory])
    · exact hjoin _ (by simp [hsource, hsubdirectory])
  | backend =>
    dsimp only
    unfold backendDirectory
    split
    · next hhas =>
      obtain ⟨hpath, hsrcPath⟩ := hbackend hhas
      exact hjoin _ (by simp [hpath, hsrcPath, hsubdirectory])
    · split
      · split
        · exact hjoin _ (by simp [hroot, happ, hapi])
        · exact hjoin _ (by simp [hroot, hlib])
      · exact hsourceLib
  | contract => exact hjoin _ (by simp [hcontracts, hsubdirectory])
  | shared => exact hsubdirectory

end ProjectComposer.Layout
