import ProjectComposer.Proofs.ProjectTree.Placement

/-!
Adding files to a tree. Where no file collides, the tree records all that it recorded before and the
new files under their origin. Nothing but files and origins changes, and both come out sorted.
-/
namespace ProjectComposer
set_option autoImplicit false

namespace ProjectTree
open Merge

/-! ## One file -/

namespace Extension
variable {origin : String} {plugins : Table String} {x x' : Extension} {f : File}

theorem add_eq_ok : x.add origin plugins f = .ok x' ↔
    x.files.get? f.path = none ∧ x' = { x with
      files := x.files.put f.path f.content
      origins := x.origins.put f.path [origin] } ∨
    (∃ present, x.files.get? f.path = some f.content ∧ x.origins.get? f.path = some present ∧
      x' = { x with
        origins := x.origins.put f.path (Text.sortedDistinct (present ++ [origin])) }) ∨
    ∃ content present, x.files.get? f.path = some content ∧ content ≠ f.content ∧
      x.origins.get? f.path = some present ∧
      x' = { x with collisions := x.collisions ++
        [collision f.path (clashEntries origin plugins f content present)] } := by
  unfold add
  cases hfile : x.files.get? f.path with
  | none => simp [eq_comm]
  | some content =>
    cases horigin : x.origins.get? f.path with
    | none => simp
    | some present =>
      by_cases hsame : content = f.content
      · simp [hsame, eq_comm]
      · simp [hsame, eq_comm]

theorem collisions_prefix (h : x.add origin plugins f = .ok x') :
    x.collisions <+: x'.collisions := by
  rcases add_eq_ok.mp h with ⟨-, rfl⟩ | ⟨_, -, -, rfl⟩ | ⟨_, _, -, -, -, rfl⟩
  · exact List.prefix_refl _
  · exact List.prefix_refl _
  · exact List.prefix_append _ _

end Extension
end ProjectTree

namespace Placement.Recorded
variable {P : Placement} {files : Table String} {origins : Table (List String)}

/-- A file at a path that nothing was put at. -/
theorem put_new (h : P.Recorded files origins) {origin : String} {f : File}
    (hnew : files.get? f.path = none) :
    (P.withFiles origin [f]).Recorded (files.put f.path f.content)
      (origins.put f.path [origin]) := by
  have hnone : ∀ node content, ¬P node f.path content := by
    intro node content hput
    have hfound := (h.content_iff f.path content).mpr ⟨node, hput⟩
    rw [hnew] at hfound
    cases hfound
  refine ⟨Table.nodup_keys_put h.nodup_paths, ?_, ?_, ?_, ?_⟩
  · rw [Table.keys_put, Table.keys_put, h.paths_eq]
  · intro path content
    rw [Table.get?_put]
    simp only [withFiles, List.mem_singleton, exists_eq_left]
    split
    · next hpath =>
      subst hpath
      simp [hnone, eq_comm]
    · next hpath => simp [h.content_iff, hpath]
  · intro path nodes hnodes
    rw [Table.get?_put] at hnodes
    split at hnodes
    · cases hnodes
      exact List.pairwise_singleton _ origin
    · exact h.pairwise_nodes path nodes hnodes
  · intro path nodes hnodes node
    rw [Table.get?_put] at hnodes
    simp only [withFiles, List.mem_singleton, exists_eq_left]
    split at hnodes
    · next hpath =>
      subst hpath
      cases hnodes
      simp [hnone]
    · next hpath => simp [h.node_iff path nodes hnodes, hpath]

/-- A file at a path where all that was put is its content. -/
theorem put_again (h : P.Recorded files origins) {origin : String} {f : File}
    {present : List String} (hfile : files.get? f.path = some f.content)
    (hnodes : origins.get? f.path = some present) :
    (P.withFiles origin [f]).Recorded files
      (origins.put f.path (Text.sortedDistinct (present ++ [origin]))) := by
  have hkey : f.path ∈ origins.keys := Table.mem_keys_iff_get?.mpr ⟨present, hnodes⟩
  refine ⟨h.nodup_paths, ?_, ?_, ?_, ?_⟩
  · rw [Table.keys_put, if_pos hkey, h.paths_eq]
  · intro path content
    rw [h.content_iff]
    simp only [withFiles, List.mem_singleton, exists_eq_left]
    constructor
    · rintro ⟨node, hput⟩
      exact ⟨node, .inl hput⟩
    · rintro ⟨node, hput | ⟨-, rfl, rfl⟩⟩
      · exact ⟨node, hput⟩
      · exact (h.content_iff f.path f.content).mp hfile
  · intro path nodes' hnodes'
    rw [Table.get?_put] at hnodes'
    split at hnodes'
    · cases hnodes'
      exact Text.pairwise_sortedDistinct _
    · exact h.pairwise_nodes path nodes' hnodes'
  · intro path nodes' hnodes' node
    rw [Table.get?_put] at hnodes'
    simp only [withFiles, List.mem_singleton, exists_eq_left]
    split at hnodes'
    · next hpath =>
      subst hpath
      cases hnodes'
      rw [Text.mem_sortedDistinct, List.mem_append, List.mem_singleton, h.node_iff _ _ hnodes]
      simp [exists_or]
    · next hpath => simp [h.node_iff path nodes' hnodes', hpath]

end Placement.Recorded

/-! ## All files -/

namespace ProjectTree
variable {P : Placement} {origin : String} {plugins : Table String}

theorem Extension.recorded_add {x x' : Extension} {f : File}
    (h : x.add origin plugins f = .ok x') (hclear : x'.collisions = [])
    (hx : P.Recorded x.files x.origins) :
    (P.withFiles origin [f]).Recorded x'.files x'.origins := by
  rcases add_eq_ok.mp h with ⟨hnew, rfl⟩ | ⟨present, hfile, hnodes, rfl⟩ | ⟨_, _, -, -, -, rfl⟩
  · exact hx.put_new hnew
  · exact hx.put_again hfile hnodes
  · exact (List.append_ne_nil_of_right_ne_nil _ (List.cons_ne_nil _ _) hclear).elim

/-- Once the last state is clear of collisions, all states before it were. -/
theorem Extension.recorded_foldlM {x x' : Extension} {fs : List File}
    (h : fs.foldlM (Extension.add origin plugins) x = .ok x') (hclear : x'.collisions = [])
    (hx : P.Recorded x.files x.origins) : (P.withFiles origin fs).Recorded x'.files x'.origins := by
  refine foldlM_preserves
    (fun done s => s.collisions = [] → (P.withFiles origin done).Recorded s.files s.origins)
    ?_ ?_ h hclear
  · intro done f s s' hdone hadd hs'
    -- Collisions are never taken back, so the state before was clear as well.
    have hs : s.collisions = [] := List.prefix_nil.mp (hs' ▸ collisions_prefix hadd)
    have hrecorded := recorded_add hadd hs' (hdone hs)
    rwa [Placement.withFiles_concat] at hrecorded
  · intro _
    rwa [Placement.withFiles_nil]

theorem addFiles_eq_ok {t t' : ProjectTree} {fs : List File} :
    t.addFiles fs origin plugins = .ok t' ↔
      ∃ x, (Text.sortByKey File.path fs).foldlM (Extension.add origin plugins)
          ⟨t.files, t.origins, []⟩ = .ok x ∧ x.collisions = [] ∧
        t' = { t with
          files := Text.sortByKey Prod.fst x.files
          origins := Text.sortByKey Prod.fst x.origins } := by
  unfold addFiles
  simp only [bind_eq_ok, mapError_eq_ok, Merge.raiseFirst_eq_ok, pure_eq_ok, exists_const]
  constructor
  · rintro ⟨x, hx, hclear, rfl⟩
    exact ⟨x, hx, hclear, rfl⟩
  · rintro ⟨x, hx, hclear, rfl⟩
    exact ⟨x, hx, hclear, rfl⟩

theorem eq_of_addFiles {t t' : ProjectTree} {fs : List File}
    (h : t.addFiles fs origin plugins = .ok t') :
    t' = { t with files := t'.files, origins := t'.origins } := by
  obtain ⟨x, -, -, rfl⟩ := addFiles_eq_ok.mp h
  rfl

theorem recorded_addFiles {t t' : ProjectTree} {fs : List File}
    (h : t.addFiles fs origin plugins = .ok t') (ht : P.Recorded t.files t.origins) :
    (P.withFiles origin fs).Recorded t'.files t'.origins ∧ t'.files.keys.Pairwise (· < ·) := by
  obtain ⟨x, hfold, hclear, rfl⟩ := addFiles_eq_ok.mp h
  have hx := Extension.recorded_foldlM hfold hclear ht
  have hfiles : Table.keys (Text.sortByKey Prod.fst x.files) = Text.sortedDistinct x.files.keys :=
    Text.map_sortByKey hx.nodup_paths
  have horigins : Table.keys (Text.sortByKey Prod.fst x.origins) =
      Text.sortedDistinct x.origins.keys :=
    Text.map_sortByKey (show x.origins.keys.Nodup from hx.paths_eq ▸ hx.nodup_paths)
  have hsorted := hx.perm (Text.perm_sortByKey _) (Text.perm_sortByKey _)
    (by rw [hfiles, horigins, hx.paths_eq])
  rw [Placement.withFiles_congr fun f => (Text.perm_sortByKey fs).mem_iff] at hsorted
  refine ⟨hsorted, ?_⟩
  rw [hfiles]
  exact Text.pairwise_sortedDistinct _

end ProjectTree
end ProjectComposer
