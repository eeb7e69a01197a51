import ProjectComposer.Compilation
import ProjectComposer.Proofs.Execution.Completed
import ProjectComposer.Proofs.Layout.Routed
import ProjectComposer.Proofs.ProjectTree.AddFiles
import ProjectComposer.Proofs.Validation.Accepted
import ProjectComposer.Proofs.Validation.DefaultSettings

/-!
What a compiled project holds. Main statement: where a compilation succeeds, every node was called
once and its output is in the project, each file and document at its final path with its content;
besides these there are the root files, which are what the finished project itself renders to, and
nothing else. The origins of a path are the nodes that emitted something there, and the origin of
the root files.
-/
namespace ProjectComposer
set_option autoImplicit false

/-! ## Emissions -/

/-- What a node emits where: its files at their final paths, and, where they are wanted, its
documents with their titles as headings. -/
inductive NodeResult.Emits (x : NodeResult) (j : Job) : String → String → Prop
  | file {p : Plugin} {f : File} {path : String} (hp : j.registry.get? x.nodeKind = some p)
      (hf : f ∈ x.output.files) (hpath : (f.mapped p.mappings).outputPath j.layout = .ok path) :
      x.Emits j path f.content
  | doc {d : Doc} {path : String} (hdocs : j.blueprint.resolvedSettings.generateDocs = true)
      (hd : d ∈ x.output.docs) (hpath : Path.normalize d.path = .ok path) :
      x.Emits j path ("# " ++ d.title ++ "\n\n" ++ d.content)

/-- A result is what the generator of its node returned when it was called in a context. -/
structure NodeResult.ReturnedIn (x : NodeResult) (j : Job) (context : Context) : Prop where
  nodeId_eq : context.nodeId = x.nodeId
  returned : ∃ n p returned, j.blueprint.node? x.nodeId = some n ∧ n.kind = x.nodeKind ∧
    j.registry.get? n.kind = some p ∧ (p.generate n context).result = .ok returned ∧
    Job.Call.accept returned = .ok x.output

/-- Who puts what where in a compiled project: the nodes what they emit, the compiler the root
files. -/
inductive Compiled.Puts (c : Compiled) (j : Job) : Placement
  | node {x : NodeResult} {path content : String} (hx : x ∈ c.results)
      (h : x.Emits j path content) : c.Puts j x.nodeId path content
  | root {f : File}
      (h : f ∈ RootFiles.files c.tree j.blueprint.resolvedSettings j.blueprint j.registry) :
      c.Puts j Job.rootOrigin f.path f.content

/-! ## Stages -/

/-- An overview, if there is one, can show the chain id. -/
def Settings.WritesOverview (s : Settings) : Prop :=
  s.generateDocs = true → s.isWritable = true

theorem RootFiles.render_eq_ok {t : ProjectTree} {s : Settings} {b : Blueprint} {r : Registry}
    {fs : List File} : render t s b r = .ok fs ↔ s.WritesOverview ∧ files t s b r = fs := by
  unfold render Settings.WritesOverview
  cases s.generateDocs <;> cases s.isWritable <;> simp

theorem RootFiles.render_eq_error {t : ProjectTree} {s : Settings} {b : Blueprint} {r : Registry}
    {e : Raised} : render t s b r = .error e ↔ ¬s.WritesOverview ∧ e = .overlong := by
  unfold render Settings.WritesOverview
  cases s.generateDocs <;> cases s.isWritable <;> simp [eq_comm]

namespace Job
variable {j : Job}

theorem contribution_eq_ok {x : NodeResult} {c : Contribution} : j.contribution x = .ok c ↔
    ∃ p, j.registry.get? x.nodeKind = some p ∧ x.output.routed p.mappings j.layout = .ok c.output ∧
      c = ⟨x.nodeId, p.id, c.output⟩ := by
  unfold contribution
  simp only [bind_eq_ok, Registry.find_eq_ok]
  constructor
  · rintro ⟨p, hp, h⟩
    cases hrouted : x.output.routed p.mappings j.layout with
    | error refusal =>
      rw [hrouted] at h
      cases h
    | ok routed =>
      rw [hrouted] at h
      obtain rfl := pure_eq_ok.mp h
      exact ⟨p, hp, hrouted, rfl⟩
  · rintro ⟨p, hp, hrouted, hc⟩
    refine ⟨p, hp, ?_⟩
    rw [hrouted]
    exact pure_eq_ok.mpr hc.symm

theorem tree_eq_ok {cs : List Contribution} {t : ProjectTree} : j.tree cs = .ok t ↔
    j.blueprint.resolvedSettings.WritesOverview ∧ ∃ merged whole : ProjectTree,
      ProjectTree.ofContributions cs j.blueprint.resolvedSettings.generateDocs = .ok merged ∧
      merged.addFiles
        (RootFiles.files merged j.blueprint.resolvedSettings j.blueprint j.registry) rootOrigin
        (Table.ofPairs (cs.map fun c => (c.nodeId, c.pluginId))) = .ok whole ∧
      t = { whole with layers := j.accepted.plan.layers } := by
  unfold tree
  simp only [bind_eq_ok, mapError_eq_ok, pure_eq_ok, RootFiles.render_eq_ok]
  constructor
  · rintro ⟨merged, hmerged, _, ⟨hwrites, rfl⟩, whole, hwhole, rfl⟩
    exact ⟨hwrites, merged, whole, hmerged, hwhole, rfl⟩
  · rintro ⟨hwrites, merged, whole, hmerged, hwhole, rfl⟩
    exact ⟨merged, hmerged, _, ⟨hwrites, rfl⟩, whole, hwhole, rfl⟩

theorem assemble_eq_ok {results : List NodeResult} {t : ProjectTree} :
    j.assemble results = .ok t ↔
      ∃ cs, List.Forall₂ (fun x c => j.contribution x = .ok c) results cs ∧ j.tree cs = .ok t := by
  unfold assemble
  simp only [bind_eq_ok, mapM_eq_ok]

/-- Contributions that cannot be merged are the fault of the whole. -/
theorem assemble_eq_error_of_fault {results : List NodeResult} {cs : List Contribution} {f : Fault}
    (hcs : List.Forall₂ (fun x c => j.contribution x = .ok c) results cs)
    (h : ProjectTree.ofContributions cs j.blueprint.resolvedSettings.generateDocs = .error f) :
    j.assemble results = .error (.fault f) := by
  unfold assemble
  rw [mapM_eq_ok.mpr hcs]
  change j.tree cs = _
  unfold tree
  dsimp only
  rw [h]
  rfl

end Job

theorem Blueprint.compile_eq_ok {b : Blueprint} {r : Registry} {roots : Roots}
    {workers : Option Int} {trace : Trace} {c : Compiled} :
    b.compile r roots workers = (trace, .ok c) ↔
      ∃ a, b.accept r = .ok a ∧
        (b.job r.orBuiltIn a roots).run workers = (trace, .ok c.results) ∧
        (b.job r.orBuiltIn a roots).assemble c.results = .ok c.tree := by
  unfold compile
  rw [b.resolve_eq]
  cases b.accept r with
  | error f => simp
  | ok a =>
    simp only [Except.ok.injEq, exists_eq_left']
    rcases (b.job r.orBuiltIn a roots).run workers with ⟨ran, outcome⟩
    cases outcome with
    | error f => simp [Except.bind]
    | ok results =>
      simp only [Except.bind, Prod.mk.injEq, map_eq_ok, Except.ok.injEq]
      constructor
      · rintro ⟨rfl, t, ht, rfl⟩
        exact ⟨⟨rfl, rfl⟩, ht⟩
      · rintro ⟨⟨rfl, rfl⟩, ht⟩
        exact ⟨rfl, c.tree, ht, rfl⟩

/-- A project can be got hold of by something that is read off it. -/
theorem Blueprint.exists_compile_eq_ok {α : Type} {b : Blueprint} {r : Registry} {roots : Roots}
    {workers : Option Int} {read : Compiled → α} {seen : α}
    (h : (b.compile r roots workers).2.toOption.map read = some seen) :
    ∃ trace c, b.compile r roots workers = (trace, .ok c) ∧ read c = seen := by
  obtain ⟨c, hc, hread⟩ := Option.map_eq_some_iff.mp h
  exact ⟨_, c, Prod.ext rfl (toOption_eq_some.mp hc), hread⟩

/-! ## Root files -/

namespace RootFiles

/-- Root files are made of variables, scripts, documents and dependencies alone. -/
theorem files_of_eq {t t' : ProjectTree} (h : t' = { t with
      files := t'.files, origins := t'.origins, layers := t'.layers })
    (s : Settings) (b : Blueprint) (r : Registry) : files t' s b r = files t s b r := by
  rw [h]
  rfl

theorem exists_path_eq_iff {t : ProjectTree} {s : Settings} {b : Blueprint} {r : Registry}
    {path : String} : (∃ f ∈ files t s b r, f.path = path) ↔
      path = "package.json" ∨ path = ".env.example" ∨
        s.generateDocs = true ∧ path = "README.md" := by
  unfold files
  cases s.generateDocs with
  | false => simp [eq_comm]
  | true => simp [eq_comm]

end RootFiles

/-! ## Placements -/

section Placements
variable {j : Job}

theorem NodeResult.puts_iff_emits {x : NodeResult} {c : Contribution}
    (h : j.contribution x = .ok c) {path content : String} :
    c.Puts j.blueprint.resolvedSettings.generateDocs path content ↔ x.Emits j path content := by
  obtain ⟨p, hp, hrouted, -⟩ := Job.contribution_eq_ok.mp h
  constructor
  · intro hputs
    cases hputs with
    | @file g hg =>
      obtain ⟨f, hf, hpath, hsame⟩ := (Output.mem_files_routed hrouted).mp hg
      have hcontent : g.content = f.content := by rw [hsame]
      rw [hcontent]
      exact .file hp hf hpath
    | @doc e hdocs he =>
      obtain ⟨d, hd, hpath, hsame⟩ := (Output.mem_docs_routed hrouted).mp he
      have htitle : e.title = d.title := by rw [hsame]
      have hcontent : e.content = d.content := by rw [hsame]
      rw [htitle, hcontent]
      exact .doc hdocs hd hpath
  · intro hemits
    cases hemits with
    | @file p' f path hp' hf hpath =>
      obtain rfl : p = p' := Option.some.inj (hp.symm.trans hp')
      have hg : ({ path := path, content := f.content } : File) ∈ c.output.files :=
        (Output.mem_files_routed hrouted).mpr ⟨f, hf, hpath, rfl⟩
      exact .file hg
    | @doc d path hdocs hd hpath =>
      have he : { d with path := path } ∈ c.output.docs :=
        (Output.mem_docs_routed hrouted).mpr ⟨d, hd, hpath, rfl⟩
      exact .doc hdocs he

theorem ofContributions_iff_emits {results : List NodeResult} {cs : List Contribution}
    (h : List.Forall₂ (fun x c => j.contribution x = .ok c) results cs)
    {node path content : String} :
    Placement.ofContributions cs j.blueprint.resolvedSettings.generateDocs node path content ↔
      ∃ x ∈ results, x.nodeId = node ∧ x.Emits j path content := by
  have hnode {x : NodeResult} {c : Contribution} (hc : j.contribution x = .ok c) :
      c.nodeId = x.nodeId := by
    obtain ⟨p, -, -, hsame⟩ := Job.contribution_eq_ok.mp hc
    rw [hsame]
  constructor
  · rintro ⟨c, hc, rfl, hputs⟩
    obtain ⟨x, hx, hcontribution⟩ := exists_mem_of_forall₂ h hc
    exact ⟨x, hx, (hnode hcontribution).symm, (NodeResult.puts_iff_emits hcontribution).mp hputs⟩
  · rintro ⟨x, hx, rfl, hemits⟩
    obtain ⟨c, hc, hcontribution⟩ := exists_mem_of_forall₂ h.flip hx
    exact ⟨c, hc, hnode hcontribution, (NodeResult.puts_iff_emits hcontribution).mpr hemits⟩

theorem Compiled.puts_iff {c : Compiled} {node path content : String} :
    c.Puts j node path content ↔
      (∃ x ∈ c.results, x.nodeId = node ∧ x.Emits j path content) ∨
        node = Job.rootOrigin ∧
          ∃ f ∈ RootFiles.files c.tree j.blueprint.resolvedSettings j.blueprint j.registry,
            f.path = path ∧ f.content = content := by
  constructor
  · intro hputs
    cases hputs with
    | node hx h => exact .inl ⟨_, hx, rfl, h⟩
    | root h => exact .inr ⟨rfl, _, h, rfl, rfl⟩
  · rintro (⟨x, hx, rfl, h⟩ | ⟨rfl, f, h, rfl, rfl⟩)
    · exact .node hx h
    · exact .root h

/-- An assembled tree records what the nodes emit and what the tree itself renders to. -/
theorem Compiled.recorded {c : Compiled} (h : j.assemble c.results = .ok c.tree) :
    (c.Puts j).Recorded c.tree.files c.tree.origins ∧ c.tree.files.keys.Pairwise (· < ·) := by
  obtain ⟨cs, hcs, htree⟩ := Job.assemble_eq_ok.mp h
  obtain ⟨-, merged, whole, hmerged, hwhole, ht⟩ := Job.tree_eq_ok.mp htree
  -- The root files were rendered from the tree before they were in it; nothing that they are made
  -- of changed since.
  have hwhole' := ProjectTree.eq_of_addFiles hwhole
  have hroot : RootFiles.files c.tree j.blueprint.resolvedSettings j.blueprint j.registry =
      RootFiles.files merged j.blueprint.resolvedSettings j.blueprint j.registry := by
    apply RootFiles.files_of_eq
    rw [ht, hwhole']
  have hputs : c.Puts j = (Placement.ofContributions cs
      j.blueprint.resolvedSettings.generateDocs).withFiles Job.rootOrigin
        (RootFiles.files merged j.blueprint.resolvedSettings j.blueprint j.registry) := by
    funext node path content
    rw [Compiled.puts_iff, Placement.withFiles, ofContributions_iff_emits hcs, hroot]
  obtain ⟨hrecorded, hsorted⟩ :=
    ProjectTree.recorded_addFiles hwhole (ProjectTree.recorded_ofContributions hmerged)
  rw [hputs, ht]
  exact ⟨hrecorded, hsorted⟩

end Placements

/-! ## Compiled projects -/

/-- Nothing is lost or made up on the way from the generators to the finished project. -/
structure Compiled.Accounted (c : Compiled) (j : Job) (trace : Trace) : Prop where
  /-- The results are what the calls that were made returned, in turn. -/
  returned : List.Forall₂ (fun context x => x.ReturnedIn j context) trace.calls c.results
  layers_eq : c.tree.layers = j.accepted.plan.layers
  nodeIds_eq : c.results.map (·.nodeId) = c.tree.layers.flatten
  perm_nodeIds : (c.results.map (·.nodeId)).Perm j.blueprint.nodeIds
  /-- Every file and every document of a node has a final path. -/
  routed : ∀ x ∈ c.results, ∃ p, j.registry.get? x.nodeKind = some p ∧
    (∀ f ∈ x.output.files, ∃ path, (f.mapped p.mappings).outputPath j.layout = .ok path) ∧
    ∀ d ∈ x.output.docs, ∃ path, Path.normalize d.path = .ok path
  pairwise_paths : c.tree.files.keys.Pairwise (· < ·)
  mem_paths_iff : ∀ path, path ∈ c.tree.files.keys ↔
    (∃ x ∈ c.results, ∃ content, x.Emits j path content) ∨
      path = "package.json" ∨ path = ".env.example" ∨
        j.blueprint.resolvedSettings.generateDocs = true ∧ path = "README.md"
  /-- Contents and origins are those of all that was put at each path. -/
  recorded : (c.Puts j).Recorded c.tree.files c.tree.origins
  manifest : c.tree.files.get? "package.json" =
    some (RootFiles.packageJson c.tree j.blueprint.resolvedSettings)
  environment : c.tree.files.get? ".env.example" =
    some (RootFiles.envExample c.tree j.blueprint.resolvedSettings)
  overview : j.blueprint.resolvedSettings.generateDocs = true →
    c.tree.files.get? "README.md" =
      some (RootFiles.readme c.tree j.blueprint.resolvedSettings j.blueprint j.registry)

namespace Job
variable {j : Job}

theorem returned_of_run {asked : Option Int} {trace : Trace} {rs : List NodeResult}
    (h : j.run asked = (trace, .ok rs)) :
    List.Forall₂ (fun context x => NodeResult.ReturnedIn x j context) trace.calls rs := by
  obtain ⟨-, cs, rfl, hcompleted⟩ := run_eq_ok.mp h
  have hreturned {c : Call} (hc : c ∈ cs) {x : NodeResult} (hgives : c.Gives x) :
      NodeResult.ReturnedIn x j c.context := by
    obtain ⟨id, -, seen, hcall⟩ := exists_mem_of_forall₂ hcompleted.calls hc
    obtain ⟨hnode, hplugin, config, -, hcontext⟩ := call_eq_ok.mp hcall
    obtain ⟨-, hid⟩ := Blueprint.id_of_node? hnode
    obtain ⟨ret, hret, haccept⟩ := hgives.returns
    refine ⟨?_, c.node, c.plugin, ret, ?_, hgives.nodeKind_eq.symm, hplugin, hret, haccept⟩
    · rw [hcontext, hgives.nodeId_eq]
      rfl
    · rw [hgives.nodeId_eq, hid, hnode]
  have hgives : List.Forall₂ (fun c x => c ∈ cs ∧ c.Gives x) cs rs :=
    (List.forall₂_and_left cs rs).mpr ⟨fun _ hc => hc, hcompleted.results⟩
  refine List.forall₂_map_left_iff.mpr (hgives.imp ?_)
  rintro c x ⟨hc, hx⟩
  exact hreturned hc hx

theorem layers_of_assemble {rs : List NodeResult} {t : ProjectTree}
    (h : j.assemble rs = .ok t) : t.layers = j.accepted.plan.layers := by
  obtain ⟨cs, -, htree⟩ := assemble_eq_ok.mp h
  obtain ⟨-, merged, whole, -, -, rfl⟩ := tree_eq_ok.mp htree
  rfl

theorem routed_of_assemble {rs : List NodeResult} {t : ProjectTree}
    (h : j.assemble rs = .ok t) {x : NodeResult} (hx : x ∈ rs) :
    ∃ p, j.registry.get? x.nodeKind = some p ∧
      (∀ f ∈ x.output.files, ∃ path, (f.mapped p.mappings).outputPath j.layout = .ok path) ∧
      ∀ d ∈ x.output.docs, ∃ path, Path.normalize d.path = .ok path := by
  obtain ⟨cs, hcs, -⟩ := assemble_eq_ok.mp h
  obtain ⟨c, -, hcontribution⟩ := exists_mem_of_forall₂ hcs.flip hx
  obtain ⟨p, hp, hrouted, -⟩ := contribution_eq_ok.mp hcontribution
  exact ⟨p, hp, Output.exists_path_routed hrouted⟩

end Job

namespace Compiled
variable {c : Compiled} {j : Job}

theorem mem_paths_iff_emits (h : (c.Puts j).Recorded c.tree.files c.tree.origins) {path : String} :
    path ∈ c.tree.files.keys ↔
      (∃ x ∈ c.results, ∃ content, x.Emits j path content) ∨
        path = "package.json" ∨ path = ".env.example" ∨
          j.blueprint.resolvedSettings.generateDocs = true ∧ path = "README.md" := by
  rw [h.mem_paths_iff, ← RootFiles.exists_path_eq_iff]
  constructor
  · rintro ⟨node, content, hputs⟩
    rcases puts_iff.mp hputs with ⟨x, hx, -, hemits⟩ | ⟨-, f, hf, hpath, -⟩
    · exact .inl ⟨x, hx, content, hemits⟩
    · exact .inr ⟨f, hf, hpath⟩
  · rintro (⟨x, hx, content, hemits⟩ | ⟨f, hf, rfl⟩)
    · exact ⟨_, _, .node hx hemits⟩
    · exact ⟨_, _, .root hf⟩

/-- A root file is stored as the finished tree renders it. -/
theorem get?_root (h : (c.Puts j).Recorded c.tree.files c.tree.origins) {f : File}
    (hf : f ∈ RootFiles.files c.tree j.blueprint.resolvedSettings j.blueprint j.registry) :
    c.tree.files.get? f.path = some f.content :=
  (h.content_iff _ _).mpr ⟨_, .root hf⟩

end Compiled

/-- A compiled project accounts for all that its nodes emitted and for nothing else besides its
root files, which are those of the project itself. -/
theorem Blueprint.compile_accounted {b : Blueprint} {r : Registry} {roots : Roots}
    {workers : Option Int} {trace : Trace} {c : Compiled}
    (h : b.compile r roots workers = (trace, .ok c)) :
    ∃ a, b.accept r = .ok a ∧ b.graph r.orBuiltIn = .ok a.graph ∧ a.graph.plan = .ok a.plan ∧
      c.Accounted (b.job r.orBuiltIn a roots) trace := by
  obtain ⟨a, haccept, hrun, hassemble⟩ := compile_eq_ok.mp h
  obtain ⟨-, hgraph, hplan⟩ := validated_eq_ok.mp haccept
  have hlayers := Job.layers_of_assemble hassemble
  obtain ⟨hrecorded, hsorted⟩ := Compiled.recorded hassemble
  obtain ⟨-, cs, -, hcompleted⟩ := Job.run_eq_ok.mp hrun
  have hids : c.results.map (·.nodeId) = a.plan.order := hcompleted.nodeIds_results
  refine ⟨a, haccept, hgraph, hplan, ?_⟩
  constructor
  case returned => exact Job.returned_of_run hrun
  case layers_eq => exact hlayers
  case nodeIds_eq =>
    rw [hlayers]
    exact hids
  case perm_nodeIds =>
    rw [hids]
    exact perm_order_nodeIds haccept
  case routed => exact fun x hx => Job.routed_of_assemble hassemble hx
  case pairwise_paths => exact hsorted
  case mem_paths_iff => exact fun path => Compiled.mem_paths_iff_emits hrecorded
  case recorded => exact hrecorded
  case manifest => exact Compiled.get?_root hrecorded List.mem_cons_self
  case environment =>
    exact Compiled.get?_root hrecorded (List.mem_cons_of_mem _ List.mem_cons_self)
  case overview =>
    intro hdocs
    refine Compiled.get?_root hrecorded (f := ⟨"README.md", _, none⟩) ?_
    unfold RootFiles.files
    rw [if_pos hdocs]
    exact List.mem_append_right _ List.mem_cons_self

/-- Two nodes that write one file, one of them also a page that a mapping moves and a document. -/
theorem Blueprint.compile_accounted_sharedFile :
    let page : Output := {
      files := [⟨"./src/page.tsx", "page", none⟩, ⟨"shared.txt", "same", none⟩]
      docs := [⟨"docs/./web.md", "Web", "text"⟩] }
    let route : Output := { files := [⟨"api/../shared.txt", "same", none⟩] }
    let web : Plugin := {
      card := { id := "web", name := "Web", field := .app }
      mappings := [("src/**", .frontendLib)]
      generate := fun _ _ => { result := .ok (.output page) } }
    let api : Plugin := {
      card := { id := "api", name := "Api", field := .app }
      generate := fun _ _ => { result := .ok (.output route) } }
    let r : Registry := .ofPlugins [web, api]
    let b : Blueprint := { id := "demo", nodes := [⟨"w", "web", [], none⟩, ⟨"a", "api", [], none⟩] }
    ∃ trace c, b.compile r = (trace, .ok c) ∧
      c.tree.origins = [(".env.example", ["dappforge"]), ("README.md", ["dappforge"]),
        ("docs/web.md", ["w"]), ("package.json", ["dappforge"]), ("shared.txt", ["a", "w"]),
        ("src/lib/page.tsx", ["w"])] ∧
      ∃ a, b.accept r = .ok a ∧ c.Accounted (b.job r.orBuiltIn a {}) trace := by
  intro page route web api r b
  have horigins : (b.compile r).2.toOption.map (·.tree.origins) = some
      [(".env.example", ["dappforge"]), ("README.md", ["dappforge"]),
        ("docs/web.md", ["w"]), ("package.json", ["dappforge"]), ("shared.txt", ["a", "w"]),
        ("src/lib/page.tsx", ["w"])] := by
    decide +kernel
  obtain ⟨c, hc, hc'⟩ := Option.map_eq_some_iff.mp horigins
  have hcompile : b.compile r = ((b.compile r).1, .ok c) :=
    Prod.ext rfl (toOption_eq_some.mp hc)
  obtain ⟨a, haccept, -, -, haccounted⟩ := compile_accounted hcompile
  exact ⟨_, c, hcompile, hc', a, haccept, haccounted⟩

end ProjectComposer
