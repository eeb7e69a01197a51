import ProjectComposer.Proofs.Compilation.Contents
import ProjectComposer.Proofs.Compilation.Ending

/-!
Compiled projects stay below their root. Every path of a finished project is normal, whichever way
it came in: as a file, in a category or out of it, as a document or as a root file. A node that
wants something outside the root ends the compilation, even though all generators did their work;
of several such nodes the fault names the first in the order of the plan.
-/
namespace ProjectComposer
set_option autoImplicit false

/-! ## Normal paths -/

theorem NodeResult.Emits.isNormal {x : NodeResult} {j : Job} {path content : String}
    (h : x.Emits j path content) : Path.IsNormal path := by
  cases h with
  | file _ _ hpath => exact File.isNormal_outputPath hpath
  | doc _ _ hpath => exact Path.isNormal_of_normalize hpath

theorem RootFiles.isNormal_path {docs : Bool} {path : String}
    (h : path = "package.json" ∨ path = ".env.example" ∨ docs = true ∧ path = "README.md") :
    Path.IsNormal path := by
  have hnormalize : Path.normalize path = .ok path := by
    rcases h with rfl | rfl | ⟨-, rfl⟩ <;> rfl
  exact Path.isNormal_of_normalize hnormalize

theorem Compiled.isNormal_path {c : Compiled} {j : Job} (h : j.assemble c.results = .ok c.tree)
    {path : String} (hpath : path ∈ c.tree.files.keys) : Path.IsNormal path := by
  obtain ⟨hrecorded, -⟩ := Compiled.recorded h
  rcases (mem_paths_iff_emits hrecorded).mp hpath with ⟨x, -, content, hemits⟩ | hroot
  · exact hemits.isNormal
  · exact RootFiles.isNormal_path hroot

/-! ## Refused nodes -/

/-- A file or a document of a node has no final path. -/
def NodeResult.Strays (x : NodeResult) (j : Job) (e : Path.Refusal) : Prop :=
  ∃ p, j.registry.get? x.nodeKind = some p ∧ x.output.Strays p.mappings j.layout e

/-- What a compilation ends with where the output of a node is refused. -/
def NodeResult.refusal (x : NodeResult) (p : Plugin) (e : Path.Refusal) : Failure :=
  .fault (.ofKind (.plugin ⟨x.nodeId, p.id, .refusedPath e⟩ []))

namespace Job
variable {j : Job} {x : NodeResult}

theorem not_strays_of_contribution {c : Contribution} (h : j.contribution x = .ok c)
    (e : Path.Refusal) : ¬x.Strays j e := by
  obtain ⟨p, hp, hrouted, -⟩ := contribution_eq_ok.mp h
  rintro ⟨p', hp', hstrays⟩
  obtain rfl := Option.some.inj (hp.symm.trans hp')
  exact Output.exists_routed_iff.mp ⟨_, hrouted⟩ e hstrays

theorem contribution_eq_error {p : Plugin} (hp : j.registry.get? x.nodeKind = some p)
    {f : Failure} : j.contribution x = .error f ↔
      ∃ e, x.output.routed p.mappings j.layout = .error e ∧ f = x.refusal p e := by
  unfold contribution
  simp only [bind_eq_error, Registry.find_eq_ok.mpr hp, Except.ok.injEq, exists_eq_left',
    reduceCtorEq, false_or]
  cases x.output.routed p.mappings j.layout with
  | ok routed => simp [pure_ne_error]
  | error e => simp [NodeResult.refusal, eq_comm]

/-- Where a node strays, assembling ends with the first one that does. -/
theorem exists_refusal {results : List NodeResult}
    (hkinds : ∀ x ∈ results, ∃ p, j.registry.get? x.nodeKind = some p)
    (hstrays : ∃ x ∈ results, ∃ e, x.Strays j e) : ∃ before x after p e,
      results = before ++ x :: after ∧ (∀ y ∈ before, ∀ e, ¬y.Strays j e) ∧
      j.registry.get? x.nodeKind = some p ∧ x.output.Strays p.mappings j.layout e ∧
      j.assemble results = .error (x.refusal p e) := by
  cases hcs : results.mapM j.contribution with
  | ok cs =>
    obtain ⟨x, hx, e, hxe⟩ := hstrays
    obtain ⟨c, -, hc⟩ := exists_mem_of_forall₂ (mapM_eq_ok.mp hcs).flip hx
    exact absurd hxe (not_strays_of_contribution hc e)
  | error f =>
    -- The results are gone through in turn, so the error is that of the first one refused.
    obtain ⟨before, x, after, rfl, hbefore, hx⟩ := mapM_eq_error.mp hcs
    obtain ⟨p, hp⟩ := hkinds x (by simp)
    obtain ⟨e, hrouted, rfl⟩ := (contribution_eq_error hp).mp hx
    refine ⟨before, x, after, p, e, rfl, fun y hy => ?_, hp, Output.strays_of_routed hrouted, ?_⟩
    · obtain ⟨c, hc⟩ := hbefore y hy
      exact not_strays_of_contribution hc
    · rw [assemble, hcs]
      rfl

theorem exists_kind_of_run {asked : Option Int} {trace : Trace} {rs : List NodeResult}
    (h : j.run asked = (trace, .ok rs)) :
    ∀ x ∈ rs, ∃ p, j.registry.get? x.nodeKind = some p := by
  intro x hx
  obtain ⟨context, -, hreturned⟩ := exists_mem_of_forall₂ (returned_of_run h) hx
  obtain ⟨n, p, -, -, hkind, hp, -⟩ := hreturned.returned
  exact ⟨p, hkind ▸ hp⟩

end Job

/-! ## Compilations -/

/-- Every path of a compiled project leads down from wherever its root is. Where all generators
returned an output and a node strays, there is no project, and the fault is that of the first such
node in the order of the plan. -/
theorem Blueprint.compile_contained (b : Blueprint) (r : Registry) (roots : Roots)
    (workers : Option Int) :
    (∀ trace c, b.compile r roots workers = (trace, .ok c) → ∀ path ∈ c.tree.files.keys,
      Path.IsNormal path ∧ ∃ names, names ≠ [] ∧ path.toList = Text.joinAt '/' names ∧
        ∀ root, Path.resolve root path = root ++ names) ∧
    ∀ a, b.accept r = .ok a →
      let j := b.job r.orBuiltIn a roots
      ∀ trace results, j.run workers = (trace, .ok results) →
        results.map (·.nodeId) = a.plan.order ∧
        ((∃ x ∈ results, ∃ e, x.Strays j e) → ∃ before x after p e,
          results = before ++ x :: after ∧ (∀ y ∈ before, ∀ e, ¬y.Strays j e) ∧
          j.registry.get? x.nodeKind = some p ∧ x.output.Strays p.mappings j.layout e ∧
          b.compile r roots workers =
            (trace, .error (.fault (.ofKind (.plugin ⟨x.nodeId, p.id, .refusedPath e⟩ []))))) := by
  refine ⟨?_, ?_⟩
  · intro trace c hcompile path hpath
    obtain ⟨a, -, -, hassemble⟩ := compile_eq_ok.mp hcompile
    have hnormal := Compiled.isNormal_path hassemble hpath
    exact ⟨hnormal, hnormal.exists_resolve_eq⟩
  · intro a haccept j trace results hrun
    obtain ⟨-, cs, -, hcompleted⟩ := Job.run_eq_ok.mp hrun
    refine ⟨hcompleted.nodeIds_results, fun hstrays => ?_⟩
    obtain ⟨before, x, after, p, e, hsplit, hbefore, hp, hx, hassemble⟩ :=
      Job.exists_refusal (Job.exists_kind_of_run hrun) hstrays
    refine ⟨before, x, after, p, e, hsplit, hbefore, hp, hx, ?_⟩
    rw [compile_of_accept haccept, hrun]
    change (trace, (j.assemble results).map _) = _
    rw [hassemble]
    rfl

/-- Paths with dots, blanks and backslashes are put in order; two nodes of another kind climb out of
the project, and the first of them is named. -/
theorem Blueprint.compile_contained_climbing :
    let neat : Output := {
      files := [⟨" src\\./lib/../main.ts ", "main", none⟩]
      docs := [⟨"docs//start.md", "Start", "text"⟩] }
    let climber : Output := { files := [⟨"up.txt", "up", none⟩, ⟨"a/../../up.txt", "up", none⟩] }
    let tidy : Plugin := {
      card := { id := "tidy", name := "Tidy", field := .app }
      generate := fun _ _ => { result := .ok (.output neat) } }
    let climbing : Plugin := {
      card := { id := "climbing", name := "Climbing", field := .app }
      generate := fun _ _ => { result := .ok (.output climber) } }
    let r : Registry := .ofPlugins [tidy, climbing]
    let t : Node := ⟨"t", "tidy", [], none⟩
    let low : Blueprint := { id := "low", nodes := [t] }
    let high : Blueprint := {
      id := "high", nodes := [t, ⟨"c", "climbing", [], none⟩, ⟨"d", "climbing", [], none⟩] }
    let results : List NodeResult :=
      [⟨"t", "tidy", neat⟩, ⟨"c", "climbing", climber⟩, ⟨"d", "climbing", climber⟩]
    (∃ trace c, low.compile r = (trace, .ok c) ∧
      c.tree.files.keys =
        [".env.example", "README.md", "docs/start.md", "package.json", "src/main.ts"] ∧
      ∀ path ∈ c.tree.files.keys, Path.IsNormal path) ∧
    ∃ a trace before x after, high.accept r = .ok a ∧
      (high.job r.orBuiltIn a {}).run none = (trace, .ok results) ∧
      results.map (·.nodeId) = a.plan.order ∧ results = before ++ x :: after ∧ x.nodeId = "c" ∧
      (∀ y ∈ before, ∀ e, ¬y.Strays (high.job r.orBuiltIn a {}) e) ∧
      high.compile r = (trace, .error (.fault (.ofKind
        (.plugin ⟨"c", "climbing", .refusedPath (.outside "a/../../up.txt")⟩ [])))) := by
  intro neat climber tidy climbing r t low high results
  have hkeys : (low.compile r).2.toOption.map (·.tree.files.keys) = some
      [".env.example", "README.md", "docs/start.md", "package.json", "src/main.ts"] := by
    decide +kernel
  obtain ⟨c, hc, hkeys⟩ := Option.map_eq_some_iff.mp hkeys
  have hlow : low.compile r = ((low.compile r).1, .ok c) := Prod.ext rfl (toOption_eq_some.mp hc)
  refine ⟨⟨_, c, hlow, hkeys, fun path hpath => ?_⟩, ?_⟩
  · exact ((compile_contained low r {} none).1 _ c hlow path hpath).1
  have hresults : (high.accept r).toOption.map
      (fun a => ((high.job r.orBuiltIn a {}).run none).2.toOption) = some (some results) := by
    decide +kernel
  obtain ⟨a, ha, hresults⟩ := Option.map_eq_some_iff.mp hresults
  have haccept : high.accept r = .ok a := toOption_eq_some.mp ha
  have hrun : (high.job r.orBuiltIn a {}).run none = (_, .ok results) :=
    Prod.ext rfl (toOption_eq_some.mp hresults)
  have hended : (high.compile r).2.map (·.results) = .error (.fault (.ofKind
      (.plugin ⟨"c", "climbing", .refusedPath (.outside "a/../../up.txt")⟩ []))) := by
    decide +kernel
  have hrefused : Path.normalize "a/../../up.txt" = .error (.outside "a/../../up.txt") := rfl
  have hstrays : ∃ x ∈ results, ∃ e, x.Strays (high.job r.orBuiltIn a {}) e := by
    have hclimbs : climber.Strays climbing.mappings (high.job r.orBuiltIn a {}).layout
        (.outside "a/../../up.txt") :=
      .file (f := ⟨"a/../../up.txt", "up", none⟩) (by simp [climber])
        (bind_eq_error.mpr (.inl hrefused))
    exact ⟨⟨"c", "climbing", climber⟩, by simp [results], _, climbing, rfl, hclimbs⟩
  obtain ⟨horder, hfirst⟩ := (compile_contained high r {} none).2 a haccept _ _ hrun
  obtain ⟨before, x, after, p, e, hsplit, hbefore, -, -, hcompile⟩ := hfirst hstrays
  rw [hcompile] at hended
  have hfault := map_eq_error.mp hended
  have hid : x.nodeId = "c" := by
    simp only [Except.error.injEq, Failure.fault.injEq, Fault.ofKind, Fault.mk.injEq,
      Fault.Kind.plugin.injEq, PluginFailure.mk.injEq] at hfault
    exact hfault.1.1.1
  exact ⟨a, _, before, x, after, haccept, hrun, horder, hsplit, hid, hbefore, hfault ▸ hcompile⟩

end ProjectComposer
