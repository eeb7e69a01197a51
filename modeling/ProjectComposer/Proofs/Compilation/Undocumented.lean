import ProjectComposer.Proofs.Compilation.Embedded
import ProjectComposer.Proofs.ProjectTree.Undocumented

/-!
Compilation without documents. Main statement: where a blueprint compiles with its documents and the
built-in plugins, it compiles with the documents turned off as well, to the same project without the
overview and without the documents of the index.

No generator reads whether documents are wanted, so every node has the same result in both runs.
What is turned off are the documents of these results, when they are merged, and the overview among
the root files; no file of a node is where one of them is.
-/
namespace ProjectComposer
set_option autoImplicit false

/-! ## Settings -/

/-- The same blueprint, with documents turned off in its settings. -/
def Blueprint.withoutDocs (b : Blueprint) : Blueprint :=
  { b with settings := some { b.resolvedSettings with generateDocs := false } }

def Job.withoutDocs (j : Job) : Job :=
  { j with blueprint := j.blueprint.withoutDocs }

theorem Job.generateDocs_withoutDocs (j : Job) :
    j.withoutDocs.blueprint.resolvedSettings.generateDocs = false :=
  rfl

def Job.Call.withSettings (c : Call) (s : Settings) : Call :=
  { c with context := { c.context with settings := s } }

/-- Of the settings a generator reads the project and the network alone. -/
theorem BuiltIn.result_withSettings {p : Plugin} (hp : p ∈ plugins) (n : Node) {x : Context}
    {s : Settings} (hproject : s.project = x.settings.project)
    (hnetwork : s.network = x.settings.network) :
    (p.generate n { x with settings := s }).result = (p.generate n x).result := by
  have halike : ReadsAlike { x with settings := s } x :=
    ⟨hproject, hnetwork, rfl, rfl, rfl, rfl, rfl, rfl⟩
  exact result_congr hp halike n n

/-! ## Runs -/

namespace Job
variable {j : Job} {finished : Table Output}

theorem call_withoutDocs {id : String} {c : Call} (h : j.call finished id = .ok c) :
    j.withoutDocs.call finished id =
      .ok (c.withSettings j.withoutDocs.blueprint.resolvedSettings) := by
  obtain ⟨hnode, hplugin, config, hconfig, hcontext⟩ := call_eq_ok.mp h
  refine call_eq_ok.mpr ⟨hnode, hplugin, config, hconfig, ?_⟩
  unfold Call.withSettings
  rw [hcontext]
  rfl

/-- The project and the network are the same without documents, and so is what a call returns. -/
theorem gives_withoutDocs (hregistry : j.registry = .builtIn) {id : String} {c : Call}
    (hcall : j.call finished id = .ok c) {x : NodeResult} (hgives : c.Gives x) :
    (c.withSettings j.withoutDocs.blueprint.resolvedSettings).Gives x := by
  obtain ⟨-, hplugin, config, -, hcontext⟩ := call_eq_ok.mp hcall
  rw [hregistry] at hplugin
  have hsettings : c.context.settings = j.blueprint.resolvedSettings := by
    rw [hcontext]
    rfl
  have hproject : j.withoutDocs.blueprint.resolvedSettings.project =
      c.context.settings.project := by
    rw [hsettings]
    rfl
  have hnetwork : j.withoutDocs.blueprint.resolvedSettings.network =
      c.context.settings.network := by
    rw [hsettings]
    rfl
  have hresult := BuiltIn.result_withSettings (Registry.mem_of_get?_builtIn hplugin).1 c.node
    hproject hnetwork
  obtain ⟨returned, hreturned, haccept⟩ := hgives.returns
  exact ⟨hgives.nodeId_eq, hgives.nodeKind_eq, returned, hresult.trans hreturned, haccept⟩

theorem LayerRun.withoutDocs (hregistry : j.registry = .builtIn) {layer : List String}
    {cs : List Call} {rs : List NodeResult} (h : j.LayerRun finished layer cs rs) :
    j.withoutDocs.LayerRun finished layer
      (cs.map fun c => c.withSettings j.withoutDocs.blueprint.resolvedSettings) rs := by
  constructor
  · rw [List.forall₂_map_right_iff]
    exact h.calls.imp fun _ _ => call_withoutDocs
  · -- Which plugin a call is for is known of the calls of the layer alone.
    have hgives : List.Forall₂ (fun c x => c ∈ cs ∧ c.Gives x) cs rs :=
      (List.forall₂_and_left cs rs).mpr ⟨fun _ hc => hc, h.results⟩
    rw [List.forall₂_map_left_iff]
    refine hgives.imp fun c x ⟨hc, hx⟩ => ?_
    obtain ⟨id, -, hcall⟩ := exists_mem_of_forall₂ h.calls hc
    exact gives_withoutDocs hregistry hcall hx

/-- Each layer hands on the same outputs, so the next one has the same results. -/
theorem Completed.withoutDocs (hregistry : j.registry = .builtIn) {layers : List (List String)}
    {cs : List Call} {rs : List NodeResult} (h : j.Completed finished layers cs rs) :
    j.withoutDocs.Completed finished layers
      (cs.map fun c => c.withSettings j.withoutDocs.blueprint.resolvedSettings) rs := by
  induction h with
  | nil => exact .nil
  | cons here _ ih =>
    rw [List.map_append]
    exact .cons (here.withoutDocs hregistry) ih

theorem exists_run_withoutDocs (hregistry : j.registry = .builtIn) {asked : Option Int}
    {trace : Trace} {rs : List NodeResult} (h : j.run asked = (trace, .ok rs)) :
    ∃ trace', j.withoutDocs.run asked = (trace', .ok rs) := by
  obtain ⟨hworkers, cs, -, hcompleted⟩ := run_eq_ok.mp h
  exact ⟨_, run_eq_ok.mpr ⟨hworkers, _, rfl, hcompleted.withoutDocs hregistry⟩⟩

/-! ## Emissions -/

/-- The index lists exactly the final paths of the documents. -/
theorem mem_docs_of_assemble {rs : List NodeResult} {t : ProjectTree}
    (h : j.assemble rs = .ok t) (hdocs : j.blueprint.resolvedSettings.generateDocs = true)
    {path : String} : path ∈ t.docs.map (·.path) ↔
      ∃ x ∈ rs, ∃ d ∈ x.output.docs, Path.normalize d.path = .ok path := by
  obtain ⟨cs, hcs, htree⟩ := assemble_eq_ok.mp h
  obtain ⟨-, merged, whole, hmerged, hwhole, rfl⟩ := tree_eq_ok.mp htree
  rw [hdocs] at hmerged
  have hindex : whole.docs = merged.docs := by
    rw [ProjectTree.eq_of_addFiles hwhole]
  change path ∈ whole.docs.map (·.path) ↔ _
  rw [hindex, ProjectTree.mem_map_path_docs hmerged]
  constructor
  · rintro ⟨c, hc, e, he, rfl⟩
    obtain ⟨x, hx, hcontribution⟩ := exists_mem_of_forall₂ hcs hc
    obtain ⟨p, -, hrouted, -⟩ := contribution_eq_ok.mp hcontribution
    obtain ⟨d, hd, hpath, -⟩ := (Output.mem_docs_routed hrouted).mp he
    exact ⟨x, hx, d, hd, hpath⟩
  · rintro ⟨x, hx, d, hd, hpath⟩
    obtain ⟨c, hc, hcontribution⟩ := exists_mem_of_forall₂ hcs.flip hx
    obtain ⟨p, -, hrouted, -⟩ := contribution_eq_ok.mp hcontribution
    have he : { d with path := path } ∈ c.output.docs :=
      (Output.mem_docs_routed hrouted).mpr ⟨d, hd, hpath, rfl⟩
    exact ⟨c, hc, _, he, rfl⟩

namespace Finished
variable {css : List (List Call)} {rs : List NodeResult} {t t' : ProjectTree} {x : NodeResult}
  {path content : String}

theorem not_mem_docs_of_root (h : j.Finished css rs) (ht : j.assemble rs = .ok t)
    (hdocs : j.blueprint.resolvedSettings.generateDocs = true) (hpath : path ∈ RootFiles.paths) :
    path ∉ t.docs.map (·.path) := by
  rw [mem_docs_of_assemble ht hdocs]
  rintro ⟨x, hx, d, hd, hnormal⟩
  exact BuiltIn.not_root_of_mem_docPaths path (h.path_mem_docPaths hx hd hnormal) hpath

/-- Without documents a node emits the rest of what it does with them. -/
theorem emits_withoutDocs_iff (h : j.Finished css rs) (ht : j.assemble rs = .ok t)
    (hdocs : j.blueprint.resolvedSettings.generateDocs = true) (hx : x ∈ rs) :
    x.Emits j.withoutDocs path content ↔ x.Emits j path content ∧ path ∉ t.docs.map (·.path) := by
  rw [mem_docs_of_assemble ht hdocs]
  constructor
  · intro hemits
    cases hemits with
    | file hp hf hpath =>
      refine ⟨.file hp hf hpath, ?_⟩
      rintro ⟨y, hy, d, hd, hnormal⟩
      exact h.path_not_mem_reservedPaths hx hp hf hpath
        (List.mem_append_right _ (h.path_mem_docPaths hy hd hnormal))
    | doc hon _ _ => cases hon
  · rintro ⟨hemits, hrest⟩
    cases hemits with
    | file hp hf hpath => exact .file hp hf hpath
    | doc _ hd hnormal => exact absurd ⟨x, hx, _, hd, hnormal⟩ hrest

end Finished
end Job

/-! ## Root files -/

/-- The manifest and the example of the environment do not speak of documents. -/
theorem RootFiles.files_withoutDocs {t t' : ProjectTree} (h : t' = { t with
      files := t'.files, origins := t'.origins, docs := [] })
    (s : Settings) (b b' : Blueprint) (r : Registry) :
    files t' { s with generateDocs := false } b' r =
      (files t s b r).filter fun f => f.path ≠ "README.md" := by
  rw [h]
  unfold files
  cases s.generateDocs with
  | false => rfl
  | true => rfl

/-! ## Trees -/

namespace Job.Finished
variable {j : Job} {css css' : List (List Call)} {rs : List NodeResult} {t t' : ProjectTree}

theorem eq_of_assemble_withoutDocs (ht : j.assemble rs = .ok t)
    (ht' : j.withoutDocs.assemble rs = .ok t') :
    t' = { t with files := t'.files, origins := t'.origins, docs := [] } := by
  obtain ⟨cs, hcs, htree⟩ := assemble_eq_ok.mp ht
  obtain ⟨cs', hcs', htree'⟩ := assemble_eq_ok.mp ht'
  obtain rfl : cs = cs' := Except.ok.inj ((mapM_eq_ok.mpr hcs).symm.trans (mapM_eq_ok.mpr hcs'))
  obtain ⟨-, merged, whole, hmerged, hwhole, rfl⟩ := tree_eq_ok.mp htree
  obtain ⟨-, merged', whole', hmerged', hwhole', rfl⟩ := tree_eq_ok.mp htree'
  have hdocs : merged'.docs = [] := by
    rw [ProjectTree.docs_ofContributions hmerged', generateDocs_withoutDocs]
    rfl
  rw [ProjectTree.eq_of_addFiles hwhole', ProjectTree.eq_of_addFiles hwhole,
    ProjectTree.eq_of_ofContributions hmerged hmerged', hdocs]
  rfl

/-- What is put where without documents is the rest of what is with them. -/
theorem puts_withoutDocs_iff (h : j.Finished css rs)
    (hdocs : j.blueprint.resolvedSettings.generateDocs = true) (ht : j.assemble rs = .ok t)
    (ht' : j.withoutDocs.assemble rs = .ok t') {node path content : String} :
    (Compiled.mk t' rs).Puts j.withoutDocs node path content ↔
      (Compiled.mk t rs).Puts j node path content ∧ t.isUndocumented path = true := by
  have hrest : t.isUndocumented path = true ↔
      path ≠ "README.md" ∧ path ∉ t.docs.map (·.path) := by
    simp [ProjectTree.isUndocumented]
  have hroot : RootFiles.files t' j.withoutDocs.blueprint.resolvedSettings
      j.withoutDocs.blueprint j.withoutDocs.registry =
        (RootFiles.files t j.blueprint.resolvedSettings j.blueprint j.registry).filter
          fun f => f.path ≠ "README.md" :=
    RootFiles.files_withoutDocs (eq_of_assemble_withoutDocs ht ht') _ _ _ _
  rw [Compiled.puts_iff, Compiled.puts_iff, hrest, hroot]
  constructor
  · rintro (⟨x, hx, rfl, hemits⟩ | ⟨rfl, f, hf, rfl, rfl⟩)
    · obtain ⟨hemits, hindex⟩ := (h.emits_withoutDocs_iff ht hdocs hx).mp hemits
      refine ⟨.inl ⟨x, hx, rfl, hemits⟩, ?_, hindex⟩
      rintro rfl
      exact h.path_not_mem_paths hx hemits (by simp [RootFiles.paths])
    · obtain ⟨hf, hne⟩ := List.mem_filter.mp hf
      exact ⟨.inr ⟨rfl, f, hf, rfl, rfl⟩, by simpa using hne,
        h.not_mem_docs_of_root ht hdocs (RootFiles.path_mem_paths hf)⟩
  · rintro ⟨⟨x, hx, rfl, hemits⟩ | ⟨rfl, f, hf, rfl, rfl⟩, hne, hindex⟩
    · exact .inl ⟨x, hx, rfl, (h.emits_withoutDocs_iff ht hdocs hx).mpr ⟨hemits, hindex⟩⟩
    · exact .inr ⟨rfl, f, List.mem_filter.mpr ⟨hf, by simpa using hne⟩, rfl, rfl⟩

theorem eq_withoutDocs (h : j.Finished css rs)
    (hdocs : j.blueprint.resolvedSettings.generateDocs = true) (ht : j.assemble rs = .ok t)
    (ht' : j.withoutDocs.assemble rs = .ok t') : t' = t.withoutDocs := by
  -- The tables without documents and the parts of those with them record one placement.
  obtain ⟨hrecorded, hsorted⟩ := Compiled.recorded (c := ⟨t, rs⟩) ht
  obtain ⟨hrecorded', hsorted'⟩ := Compiled.recorded (c := ⟨t', rs⟩) ht'
  have hpart := hrecorded.filter t.isUndocumented
  have hputs : (Compiled.mk t' rs).Puts j.withoutDocs = fun node path content =>
      (Compiled.mk t rs).Puts j node path content ∧ t.isUndocumented path = true := by
    funext node path content
    exact propext (h.puts_withoutDocs_iff hdocs ht ht')
  rw [hputs] at hrecorded'
  have hsortedPart : (Table.keys (t.files.filter fun e => t.isUndocumented e.1)).Pairwise
      (· < ·) := by
    rw [Table.keys_filter]
    exact hsorted.filter _
  obtain ⟨hfiles, horigins⟩ := hrecorded'.unique hpart hsorted' hsortedPart
  dsimp only at hfiles horigins
  rw [eq_of_assemble_withoutDocs ht ht', hfiles, horigins]
  rfl

/-- Outputs that agree with their documents agree without them. -/
theorem exists_assemble_withoutDocs (h : j.Finished css rs) (h' : j.withoutDocs.Finished css' rs)
    (hdocs : j.blueprint.resolvedSettings.generateDocs = true) (ht : ∃ t, j.assemble rs = .ok t) :
    ∃ t', j.withoutDocs.assemble rs = .ok t' := by
  obtain ⟨-, cs, hcs, hfree⟩ := h.exists_assemble_iff.mp ht
  have hwrites : j.withoutDocs.blueprint.resolvedSettings.WritesOverview := by
    intro hwanted
    rw [j.generateDocs_withoutDocs] at hwanted
    cases hwanted
  refine h'.exists_assemble_iff.mpr ⟨hwrites, cs, hcs,
    fun topic key hdisputed => hfree topic key ?_⟩
  rw [hdocs]
  exact hdisputed.withDocs

end Job.Finished

/-! ## Blueprints -/

namespace Blueprint
variable {b : Blueprint} {roots : Roots} {workers : Option Int} {trace : Trace} {c : Compiled}

theorem accept_withoutDocs (b : Blueprint) (r : Registry) :
    b.withoutDocs.accept r = b.accept r :=
  rfl

/-- With its documents turned off a blueprint compiles wherever it did with them. The overview and
the documents of the index are gone, and with them the index; all else is the same. -/
theorem compile_withoutDocs (hdocs : b.resolvedSettings.generateDocs = true)
    (h : b.compile .builtIn roots workers = (trace, .ok c)) :
    ∃ trace' c', b.withoutDocs.compile .builtIn roots workers = (trace', .ok c') ∧
      c'.tree = c.tree.withoutDocs := by
  obtain ⟨a, haccept, hrun, hassemble⟩ := compile_eq_ok.mp h
  have haccept' : b.withoutDocs.accept .builtIn = .ok a :=
    (b.accept_withoutDocs .builtIn).trans haccept
  rw [Registry.orBuiltIn_builtIn] at hrun hassemble
  obtain ⟨trace', hrun'⟩ := Job.exists_run_withoutDocs rfl hrun
  obtain ⟨css, -, hfinished⟩ := (valid_job haccept).exists_finished_of_run rfl hrun
  obtain ⟨css', -, hfinished'⟩ := (valid_job haccept').exists_finished_of_run rfl hrun'
  obtain ⟨t', ht'⟩ := hfinished.exists_assemble_withoutDocs hfinished' hdocs ⟨_, hassemble⟩
  have hcompile : b.withoutDocs.compile .builtIn roots workers = (trace', .ok ⟨t', c.results⟩) := by
    refine compile_eq_ok.mpr ⟨a, haccept', ?_⟩
    rw [Registry.orBuiltIn_builtIn]
    exact ⟨hrun', ht'⟩
  exact ⟨trace', _, hcompile, hfinished.eq_withoutDocs hdocs hassemble ht'⟩

/-- A contract, which has a guide, beside a login, which has none. -/
theorem compile_withoutDocs_guide :
    let b : Blueprint := {
      id := "shop"
      nodes := [⟨"login", "wallet-auth", [], none⟩, ⟨"nft", "erc721-stylus", [], none⟩]
      settings := some { project := { name := "Shop" } } }
    let quiet : Settings := { project := { name := "Shop" }, generateDocs := false }
    b.withoutDocs = { b with settings := some quiet } ∧
      ∃ trace c trace' c', b.compile .builtIn = (trace, .ok c) ∧
        c.tree.docs.map (·.path) = ["docs/erc721-nft.md"] ∧
        "README.md" ∈ c.tree.files.keys ∧ "docs/erc721-nft.md" ∈ c.tree.files.keys ∧
        b.withoutDocs.compile .builtIn = (trace', .ok c') ∧ c'.tree = c.tree.withoutDocs ∧
        c'.tree.files.keys = [".env.example", "contracts/Cargo.toml", "contracts/src/lib.rs",
          "package.json", "scripts/deploy-erc721.ts", "src/components/ERC721NFTPanel.tsx",
          "src/lib/auth/wallet-auth.ts", "src/lib/cn.ts", "src/lib/erc721-nft.ts"] := by
  intro b quiet
  have hseen : (b.compile .builtIn).2.toOption.map (fun c =>
      (c.tree.docs.map (·.path), c.tree.files.keys, c.tree.withoutDocs.files.keys)) = some
        (["docs/erc721-nft.md"],
          [".env.example", "README.md", "contracts/Cargo.toml", "contracts/src/lib.rs",
            "docs/erc721-nft.md", "package.json", "scripts/deploy-erc721.ts",
            "src/components/ERC721NFTPanel.tsx", "src/lib/auth/wallet-auth.ts", "src/lib/cn.ts",
            "src/lib/erc721-nft.ts"],
          [".env.example", "contracts/Cargo.toml", "contracts/src/lib.rs",
            "package.json", "scripts/deploy-erc721.ts", "src/components/ERC721NFTPanel.tsx",
            "src/lib/auth/wallet-auth.ts", "src/lib/cn.ts", "src/lib/erc721-nft.ts"]) := by
    decide +kernel
  obtain ⟨trace, c, hcompile, hread⟩ := exists_compile_eq_ok hseen
  simp only [Prod.mk.injEq] at hread
  obtain ⟨hindex, hkeys, hrest⟩ := hread
  obtain ⟨trace', c', hcompile', htree⟩ := compile_withoutDocs rfl hcompile
  exact ⟨rfl, trace, c, trace', c', hcompile, hindex, by simp [hkeys], by simp [hkeys], hcompile',
    htree, by rw [htree, hrest]⟩

end Blueprint
end ProjectComposer
