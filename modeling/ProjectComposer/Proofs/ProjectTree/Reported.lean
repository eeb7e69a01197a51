import ProjectComposer.Proofs.Diagnostic.Reported
import ProjectComposer.Proofs.ProjectTree.AddFiles

/-!
Merging and adding files end with a tree or a reported failure. All that can go wrong in a merge is
that entries disagree, and every disagreement has a diagnostic. Where a file is added at a path that
is taken, its origins are there, for the two tables of a tree have the same keys all along.
-/
namespace ProjectComposer
set_option autoImplicit false

namespace Merge

/-! ## Groups -/

theorem diagnosed_agreed {disagreement : List Entry → Fault}
    (h : ∀ es, (disagreement es).diagnostics ≠ []) (es : List Entry) :
    Diagnosed (agreed disagreement es) := by
  intro f hf
  unfold agreed at hf
  split at hf
  · cases hf
  · cases hf
  · cases hf
    exact h es

theorem diagnostics_collision_ne_nil (path : String) (es : List Entry) :
    (collision path es).diagnostics ≠ [] :=
  Fault.diagnostics_ofKind_ne_nil _ _

theorem diagnostics_conflict_ne_nil (what key : String) (es : List Entry) :
    (conflict what key es).diagnostics ≠ [] :=
  Fault.diagnostics_ofKind_ne_nil _ _

/-- What is made of an agreed value fails in no other way than the agreement. -/
theorem diagnosed_agreed_bind {β : Type} {disagreement : List Entry → Fault} {es : List Entry}
    (h : ∀ es, (disagreement es).diagnostics ≠ []) (f : Option String → β) :
    Diagnosed (agreed disagreement es >>= fun o => pure (f o)) := by
  intro fault hfault
  simp only [bind_eq_error, pure_ne_error, and_false, exists_false, or_false] at hfault
  exact diagnosed_agreed h es fault hfault

theorem diagnosed_raiseFirst {fs : List Fault} (h : ∀ f ∈ fs, f.diagnostics ≠ []) :
    Diagnosed (raiseFirst fs) := by
  intro f hf
  cases fs with
  | nil => cases hf
  | cons first more =>
    cases hf
    have hfirst := h first List.mem_cons_self
    rw [List.flatMap_cons]
    exact List.append_ne_nil_of_left_ne_nil hfirst _

theorem diagnostics_faults_byKey {α β : Type} {key : α → String}
    {merge : String → List α → Except Fault β} (h : ∀ k as, Diagnosed (merge k as)) {l : List α}
    {f : Fault} (hf : f ∈ faults (byKey key merge l)) : f.diagnostics ≠ [] := by
  obtain ⟨k, -, hk⟩ := List.mem_map.mp (mem_faults.mp hf)
  exact h k _ f hk

end Merge

/-! ## Trees -/

namespace ProjectTree
open Merge

theorem diagnosed_ofContributions (cs : List Contribution) (docs : Bool) :
    Diagnosed (ofContributions cs docs) := by
  intro f hf
  unfold ofContributions at hf
  simp only [bind_eq_error, pure_ne_error, and_false, exists_false, or_false] at hf
  refine diagnosed_raiseFirst (fun g hg => ?_) f hf
  simp only [List.mem_append] at hg
  rcases hg with ((hg | hg) | hg) | hg
  · exact diagnostics_faults_byKey
      (fun path _ => diagnosed_agreed_bind (diagnostics_collision_ne_nil path) _) hg
  · exact diagnostics_faults_byKey
      (fun key _ => diagnosed_agreed_bind (diagnostics_conflict_ne_nil _ key) _) hg
  · exact diagnostics_faults_byKey
      (fun key _ => diagnosed_agreed_bind (diagnostics_conflict_ne_nil _ key) _) hg
  · exact diagnostics_faults_byKey
      (fun key _ => diagnosed_agreed_bind (diagnostics_conflict_ne_nil _ key) _) hg

/-! ## Adding files -/

/-- A tree that is being extended has origins for its files and diagnostics for its collisions. -/
structure Extension.Sound (x : Extension) : Prop where
  paths_eq : x.origins.keys = x.files.keys
  diagnosed : ∀ f ∈ x.collisions, f.diagnostics ≠ []

theorem Extension.exists_add {x : Extension} (h : x.Sound) (origin : String)
    (plugins : Table String) (f : File) : ∃ x', x.add origin plugins f = .ok x' ∧ x'.Sound := by
  cases hfile : x.files.get? f.path with
  | none =>
    refine ⟨_, add_eq_ok.mpr (.inl ⟨hfile, rfl⟩), ?_, h.diagnosed⟩
    rw [Table.keys_put, Table.keys_put, h.paths_eq]
  | some content =>
    have hpath : f.path ∈ x.origins.keys :=
      h.paths_eq ▸ Table.mem_keys_iff_get?.mpr ⟨content, hfile⟩
    obtain ⟨present, hpresent⟩ := Table.mem_keys_iff_get?.mp hpath
    by_cases hsame : content = f.content
    · refine ⟨_, add_eq_ok.mpr (.inr (.inl ⟨present, hsame ▸ hfile, hpresent, rfl⟩)), ?_,
        h.diagnosed⟩
      rw [Table.keys_put, if_pos hpath, h.paths_eq]
    · refine ⟨_, add_eq_ok.mpr (.inr (.inr ⟨content, present, hfile, hsame, hpresent, rfl⟩)),
        h.paths_eq, fun g hg => ?_⟩
      rcases List.mem_append.mp hg with hg | hg
      · exact h.diagnosed g hg
      · rw [List.mem_singleton.mp hg]
        exact diagnostics_collision_ne_nil _ _

theorem onlyReported_addFiles {t : ProjectTree} (h : t.origins.keys = t.files.keys)
    (files : List File) (origin : String) (plugins : Table String) :
    OnlyReported (t.addFiles files origin plugins) := by
  have hstart : Extension.Sound ⟨t.files, t.origins, []⟩ := ⟨h, by simp⟩
  obtain ⟨x, hx, hsound⟩ := exists_foldlM
    (fun x f hx => Extension.exists_add hx origin plugins f) (Text.sortByKey File.path files) hstart
  unfold addFiles
  refine OnlyReported.bind (.of_exists ⟨x, hx⟩) fun x' hx' => ?_
  obtain rfl := Except.ok.inj (hx.symm.trans hx')
  exact OnlyReported.bind (diagnosed_raiseFirst hsound.diagnosed).mapError fun u _ => .ok _

end ProjectTree
end ProjectComposer
