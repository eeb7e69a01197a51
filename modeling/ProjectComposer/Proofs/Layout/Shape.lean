import ProjectComposer.Layout.Configured
import ProjectComposer.Proofs.Layout.Routed
import ProjectComposer.Proofs.Path.LastName
import ProjectComposer.Proofs.Text.Sorted

/-!
What routing takes from a layout and what it leaves of a path. A layout has a shape, which is all of
it that directories are made of: layouts of one shape route alike. Whatever the directory, the last
name of a file stays the last name of its final path.
-/
namespace ProjectComposer
set_option autoImplicit false

/-! ## Shapes -/

/-- The layout without the kinds of its nodes and the question of contracts, which no directory
depends on. -/
def Layout.shape (l : Layout) : Layout :=
  { l with nodeKinds := [], hasContracts := false }

theorem Layout.directory_shape (l : Layout) (c : Category) : l.shape.directory c = l.directory c :=
  rfl

section Shape
variable {l l' : Layout}

theorem Layout.frontend_congr (h : l.shape = l'.shape) :
    l.frontendPath = l'.frontendPath ∧ l.frontendSrcPath = l'.frontendSrcPath := by
  simp only [shape, mk.injEq] at h
  simp [h]

theorem Layout.directory_congr (h : l.shape = l'.shape) (c : Category) :
    l.directory c = l'.directory c := by
  rw [← directory_shape, h, directory_shape]

theorem File.outputPath_congr (h : l.shape = l'.shape) (f : File) :
    f.outputPath l = f.outputPath l' := by
  unfold outputPath
  simp only [Layout.directory_congr h]

theorem Output.routed_congr (h : l.shape = l'.shape) (o : Output) (m : Mappings) :
    o.routed m l = o.routed m l' := by
  unfold routed File.routed
  simp only [File.outputPath_congr h]

end Shape

namespace Layout
variable {nodes nodes' : List Node}

/-- There is a node of a kind that shapes the frontend. -/
theorem hasFrontend_ofNodes {roots : Roots} {usesSource : Node → Bool} :
    (ofNodes nodes roots usesSource).hasFrontend = true ↔ ∃ n ∈ nodes, isFrontend n = true := by
  simp only [ofNodes, List.any_eq_true, Text.mem_sortedDistinct, List.mem_map, isFrontend]
  constructor
  · rintro ⟨kind, ⟨n, hn, rfl⟩, hkind⟩
    exact ⟨n, hn, hkind⟩
  · rintro ⟨n, hn, hkind⟩
    exact ⟨n.kind, ⟨n, hn, rfl⟩, hkind⟩

/-- The shape is settled by whether there is a frontend and what the first one says. -/
theorem shape_ofNodes_congr {roots : Roots} {usesSource usesSource' : Node → Bool}
    (hfrontend : (∃ n ∈ nodes', isFrontend n = true) ↔ ∃ n ∈ nodes, isFrontend n = true)
    (hsource : (nodes'.find? isFrontend).all usesSource' =
      (nodes.find? isFrontend).all usesSource) :
    (ofNodes nodes' roots usesSource').shape = (ofNodes nodes roots usesSource).shape := by
  have hhas : (ofNodes nodes' roots usesSource').hasFrontend =
      (ofNodes nodes roots usesSource).hasFrontend := by
    rw [Bool.eq_iff_iff, hasFrontend_ofNodes, hasFrontend_ofNodes, hfrontend]
  have hbackend (nodes : List Node) (usesSource : Node → Bool) :
      (ofNodes nodes roots usesSource).hasBackend = false := by
    simp [ofNodes, backendKinds]
  have hsrc : (ofNodes nodes' roots usesSource').frontendSrcPath =
      (ofNodes nodes roots usesSource).frontendSrcPath := by
    simp only [ofNodes, hsource]
  unfold shape
  rw [hhas, hsrc, hbackend, hbackend]
  rfl

end Layout

/-! ## Last names -/

/-- A plain name at the end of a file's path is there in its final path. -/
theorem File.getLast?_outputPath {f : File} {l : Layout} {path : String} {s : Path.Segment}
    (h : f.outputPath l = .ok path) (hs : Path.IsPlainName s)
    (hlast : (Path.names f.path).getLast? = some s) : (Path.names path).getLast? = some s := by
  obtain ⟨relative, hrelative, hplaced⟩ := bind_eq_ok.mp h
  have hkept := Path.getLast?_normalize hrelative hs hlast
  have hnormal := Path.isNormal_of_normalize hrelative
  split at hplaced
  · obtain rfl := pure_eq_ok.mp hplaced
    exact hkept
  · dsimp only at hplaced
    split at hplaced
    · obtain rfl := pure_eq_ok.mp hplaced
      exact hkept
    · exact Path.getLast?_normalize hplaced hs ((Path.getLast?_join hnormal).trans hkept)

end ProjectComposer
