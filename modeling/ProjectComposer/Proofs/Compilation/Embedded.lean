import ProjectComposer.Proofs.BuiltIn.RootFree
import ProjectComposer.Proofs.Compilation.GivenRegistry
import ProjectComposer.Proofs.ProjectTree.Fewer

/-!
Compilations of a blueprint and of a wider one with the built-in plugins. Where the nodes that were
added are of kinds that no generator takes and leave the shape of the layout as it is, every other
node has the same result and emits the same, so the smaller blueprint contributes a part of what the
wider one does. If all of it can be put together, so can the part.
-/
namespace ProjectComposer
set_option autoImplicit false

/-! ## Contributions -/

namespace Job.RunsWidened
variable {j' j : Job} {added : List Node} {css' css : List (List Call)} {rs' rs : List NodeResult}

theorem contribution_eq (h : j'.RunsWidened j added css' css rs' rs) (x : NodeResult) :
    j'.contribution x = j.contribution x := by
  unfold contribution
  simp only [h.widens.registry_eq, Output.routed_congr h.shape_eq]

theorem resolvedSettings_eq (h : j'.RunsWidened j added css' css rs' rs) :
    j'.blueprint.resolvedSettings = j.blueprint.resolvedSettings :=
  h.widens.blueprint.resolvedSettings_eq

theorem emits_iff (h : j'.RunsWidened j added css' css rs' rs) {x : NodeResult}
    {path content : String} : x.Emits j' path content ↔ x.Emits j path content := by
  constructor
  · intro hemits
    cases hemits with
    | file hp hf hpath =>
      rw [h.widens.registry_eq] at hp
      rw [File.outputPath_congr h.shape_eq] at hpath
      exact .file hp hf hpath
    | doc hdocs hd hpath => exact .doc (h.resolvedSettings_eq ▸ hdocs) hd hpath
  · intro hemits
    cases hemits with
    | file hp hf hpath =>
      rw [← h.widens.registry_eq] at hp
      rw [← File.outputPath_congr h.shape_eq] at hpath
      exact .file hp hf hpath
    | doc hdocs hd hpath => exact .doc (h.resolvedSettings_eq ▸ hdocs) hd hpath

theorem subset_results (h : j'.RunsWidened j added css' css rs' rs) : rs ⊆ rs' :=
  fun _ hx => (h.mem_results_iff (h.finished.nodeId_mem hx)).mpr hx

section Contributions
variable {cs' cs : List Contribution}

/-- The smaller blueprint contributes what its nodes contribute in the wider one. -/
theorem mem_contributions_iff (h : j'.RunsWidened j added css' css rs' rs)
    (hcs' : List.Forall₂ (fun x c => j'.contribution x = .ok c) rs' cs')
    (hcs : List.Forall₂ (fun x c => j.contribution x = .ok c) rs cs) {c : Contribution} :
    c ∈ cs ↔ c ∈ cs' ∧ c.nodeId ∈ j.blueprint.nodeIds := by
  have hnode {x : NodeResult} (hx : j.contribution x = .ok c) : c.nodeId = x.nodeId := by
    obtain ⟨p, -, -, hsame⟩ := contribution_eq_ok.mp hx
    rw [hsame]
  rw [mem_iff_of_forall₂_ok hcs, mem_iff_of_forall₂_ok hcs']
  simp only [h.contribution_eq]
  constructor
  · rintro ⟨x, hx, hc⟩
    exact ⟨⟨x, h.subset_results hx, hc⟩, hnode hc ▸ h.finished.nodeId_mem hx⟩
  · rintro ⟨⟨x, hx, hc⟩, hid⟩
    exact ⟨x, (h.mem_results_iff (hnode hc ▸ hid)).mp hx, hc⟩

theorem subset_contributions (h : j'.RunsWidened j added css' css rs' rs)
    (hcs' : List.Forall₂ (fun x c => j'.contribution x = .ok c) rs' cs')
    (hcs : List.Forall₂ (fun x c => j.contribution x = .ok c) rs cs) : cs ⊆ cs' :=
  fun _ hc => ((h.mem_contributions_iff hcs' hcs).mp hc).1

end Contributions

theorem exists_assemble (h : j'.RunsWidened j added css' css rs' rs)
    (h' : ∃ t', j'.assemble rs' = .ok t') : ∃ t, j.assemble rs = .ok t := by
  obtain ⟨hwrites, cs', hcs', hfree⟩ := h.finished'.exists_assemble_iff.mp h'
  have hrouted : ∀ x ∈ rs, ∃ c, j.contribution x = .ok c := by
    intro x hx
    obtain ⟨c, -, hc⟩ := exists_mem_of_forall₂ hcs'.flip (h.subset_results hx)
    exact ⟨c, h.contribution_eq x ▸ hc⟩
  obtain ⟨cs, hcs⟩ := exists_forall₂ hrouted
  rw [h.resolvedSettings_eq] at hwrites hfree
  refine h.finished.exists_assemble_iff.mpr ⟨hwrites, cs, hcs, fun topic key hdisputed => ?_⟩
  exact hfree topic key (hdisputed.mono (h.subset_contributions hcs' hcs))

end Job.RunsWidened

/-! ## Stages with built-in plugins -/

theorem Registry.orBuiltIn_builtIn : Registry.builtIn.orBuiltIn = .builtIn :=
  orBuiltIn_of_ne plugins_builtIn_ne_nil

namespace Blueprint
variable {b : Blueprint} {roots : Roots} {a : Accepted} {workers : Option Int}

theorem accept_builtIn (b : Blueprint) : b.accept .builtIn = b.validated .builtIn := by
  rw [accept, Registry.orBuiltIn_builtIn]

theorem valid_job (h : b.accept .builtIn = .ok a) : (b.job .builtIn a roots).Valid := by
  rw [accept_builtIn] at h
  exact h

/-- A project that was compiled with the built-in registry, with the calls that were made. -/
structure Builds (b : Blueprint) (roots : Roots) (a : Accepted) (css : List (List Job.Call))
    (c : Compiled) : Prop where
  accept_eq : b.accept .builtIn = .ok a
  finished : (b.job .builtIn a roots).Finished css c.results
  assemble_eq : (b.job .builtIn a roots).assemble c.results = .ok c.tree

/-- Once a blueprint is accepted, there are workers and the scaffold can be made, only putting the
outputs together can fail. -/
theorem compile_of_accept_builtIn (h : b.accept .builtIn = .ok a)
    (hworkers : 0 ≤ Job.workers workers) (hwrites : b.WritesScaffold) (roots : Roots) : ∃ css rs,
      (b.job .builtIn a roots).Finished css rs ∧
      b.compile .builtIn roots workers = (.ofCalls css.flatten,
        ((b.job .builtIn a roots).assemble rs).map fun tree => ⟨tree, rs⟩) := by
  obtain ⟨css, rs, hrun, hfinished⟩ := (valid_job h).exists_finished rfl hworkers hwrites
  refine ⟨css, rs, hfinished, ?_⟩
  rw [compile_of_accept h, Registry.orBuiltIn_builtIn, hrun]
  rfl

theorem exists_builds {trace : Trace} {c : Compiled}
    (h : b.compile .builtIn roots workers = (trace, .ok c)) :
    0 ≤ Job.workers workers ∧ ∃ a css, b.Builds roots a css c := by
  obtain ⟨a, haccept, hrun, hassemble⟩ := compile_eq_ok.mp h
  rw [Registry.orBuiltIn_builtIn] at hrun hassemble
  obtain ⟨css, -, hfinished⟩ := (valid_job haccept).exists_finished_of_run rfl hrun
  exact ⟨(Job.run_eq_ok.mp hrun).1, a, css, haccept, hfinished, hassemble⟩

/-! ## Wider blueprints -/

namespace Widens
variable {b' : Blueprint} {added : List Node} {a' : Accepted}

theorem widens_job (h : b'.Widens b added) (ha' : b'.accept .builtIn = .ok a')
    (ha : b.accept .builtIn = .ok a) (roots : Roots) :
    (b'.job .builtIn a' roots).Widens (b.job .builtIn a roots) added :=
  ⟨valid_job ha', valid_job ha, rfl, Registry.undemanding_builtIn, h⟩

/-- What a node of the smaller blueprint says of its sources is the same in both. -/
theorem usesSource_eq (h : b'.Widens b added) (ha' : b'.accept .builtIn = .ok a')
    (ha : b.accept .builtIn = .ok a) {n : Node} (hn : n ∈ b.nodes) :
    Layout.usesSource a'.configs n = Layout.usesSource a.configs n := by
  have hconfig : a'.configs.get? n.id = a.configs.get? n.id :=
    (h.widens_job ha' ha {}).get?_configs_eq hn
  unfold Layout.usesSource
  rw [hconfig]

end Widens

theorem Widens.writesScaffold {b' : Blueprint} {added : List Node} (h : b'.Widens b added)
    (hwrites : b'.WritesScaffold) : b.WritesScaffold := by
  rintro ⟨n, hn, hkind⟩
  rw [← h.resolvedSettings_eq]
  exact hwrites ⟨n, h.mem_nodes_of_mem hn, hkind⟩

/-- A blueprint with more nodes, which have no say in what the others are given: no generator takes
what they put out, and none of them is a frontend. -/
structure Embeds (b' b : Blueprint) (added : List Node) : Prop extends b'.Widens b added where
  nodes_ne_nil : b.nodes ≠ []
  unneeded : ∀ n ∈ added, Job.IsUnneeded n.kind
  not_isFrontend : ∀ n ∈ added, ¬Layout.isFrontend n = true
  /-- The first frontends of both agree on the directory for sources. -/
  usesSource_eq : ∀ a' a, b'.accept .builtIn = .ok a' → b.accept .builtIn = .ok a →
    (b'.nodes.find? Layout.isFrontend).all (Layout.usesSource a'.configs) =
      (b.nodes.find? Layout.isFrontend).all (Layout.usesSource a.configs)

namespace Embeds
variable {b' : Blueprint} {added : List Node} {a' : Accepted}

theorem symm (h : b'.Embeds b []) : b.Embeds b' [] where
  toWidens := h.toWidens.symm
  nodes_ne_nil := fun hnil => h.nodes_ne_nil (List.nil_perm.mp (hnil ▸ h.perm_nodes))
  unneeded := by simp
  not_isFrontend := by simp
  usesSource_eq := fun a a' ha ha' => (h.usesSource_eq a' a ha' ha).symm

theorem shape_eq (h : b'.Embeds b added) (ha' : b'.accept .builtIn = .ok a')
    (ha : b.accept .builtIn = .ok a) (roots : Roots) :
    (b'.job .builtIn a' roots).layout.shape = (b.job .builtIn a roots).layout.shape := by
  refine Layout.shape_ofNodes_congr ?_ (h.usesSource_eq a' a ha' ha)
  refine exists_congr fun n => ?_
  rw [h.mem_nodes]
  exact and_congr_left fun hn => or_iff_right fun hadded => h.not_isFrontend n hadded hn

theorem runsWidened (h : b'.Embeds b added) (ha' : b'.accept .builtIn = .ok a')
    (ha : b.accept .builtIn = .ok a) {css' css : List (List Job.Call)} {rs' rs : List NodeResult}
    (hfinished' : (b'.job .builtIn a' roots).Finished css' rs')
    (hfinished : (b.job .builtIn a roots).Finished css rs) :
    (b'.job .builtIn a' roots).RunsWidened (b.job .builtIn a roots) added css' css rs' rs :=
  ⟨h.toWidens.widens_job ha' ha roots, hfinished', hfinished, h.unneeded, h.shape_eq ha' ha roots⟩

/-- Where a wider blueprint compiles, so does the smaller one. -/
theorem exists_compile (h : b'.Embeds b added) {trace' : Trace} {c' : Compiled}
    (h' : b'.compile .builtIn roots workers = (trace', .ok c')) :
    ∃ trace c, b.compile .builtIn roots workers = (trace, .ok c) := by
  obtain ⟨hworkers, a', css', hbuilds'⟩ := exists_builds h'
  have hvalidated' : ∃ a', b'.validated .builtIn = .ok a' :=
    ⟨a', b'.accept_builtIn ▸ hbuilds'.accept_eq⟩
  obtain ⟨a, ha⟩ := h.toWidens.exists_validated Registry.undemanding_builtIn h.nodes_ne_nil
    hvalidated'
  rw [← accept_builtIn] at ha
  obtain ⟨css, rs, hfinished, hcompile⟩ := compile_of_accept_builtIn ha hworkers
    (h.toWidens.writesScaffold hbuilds'.finished.writesScaffold) roots
  have hruns := h.runsWidened hbuilds'.accept_eq ha hbuilds'.finished hfinished
  obtain ⟨t, ht⟩ := hruns.exists_assemble ⟨_, hbuilds'.assemble_eq⟩
  rw [ht] at hcompile
  exact ⟨_, _, hcompile⟩

end Embeds
end Blueprint
end ProjectComposer
