import ProjectComposer.Proofs.BuiltIn.Places
import ProjectComposer.Proofs.BuiltIn.Runs
import ProjectComposer.Proofs.Compilation.Contents
import ProjectComposer.Proofs.ProjectTree.Extended

/-!
Built-in files keep clear of the root files and of the documents. No file that a built-in generator
asks for has the name of a root file or of a document, and routing keeps last names, so wherever the
parts of a project are put no final path is that of one. So the root files can be added to whatever
was merged, and a run of built-in generators has a tree exactly if all of its outputs can be routed
and agree.
-/
namespace ProjectComposer
set_option autoImplicit false

open ProjectComposer.Path

/-! ## Root files -/

/-- The paths that root files may have. -/
def RootFiles.paths : List String :=
  ["package.json", ".env.example", "README.md"]

theorem RootFiles.path_mem_paths {t : ProjectTree} {s : Settings} {b : Blueprint} {r : Registry}
    {f : File} (hf : f ∈ files t s b r) : f.path ∈ paths := by
  rcases exists_path_eq_iff.mp ⟨f, hf, rfl⟩ with h | h | ⟨-, h⟩
  · simp [paths, h]
  · simp [paths, h]
  · simp [paths, h]

namespace BuiltIn

/-! ## Names -/

/-- The paths that documents may have. -/
def docPaths : List String :=
  ["docs/frontend/README.md", "docs/erc721-nft.md", "docs/development/quality.md"]

/-- Paths that are no place for the files of a node. -/
def reservedPaths : List String :=
  RootFiles.paths ++ docPaths

theorem not_root_of_mem_docPaths : ∀ path ∈ docPaths, path ∉ RootFiles.paths := by
  decide +kernel

/-- The last name of a path is plain, and no root file and no document has it. -/
def EndsApart (path : String) : Prop :=
  ∃ s ∈ (names path).getLast?, IsPlainName s ∧ ∀ p ∈ reservedPaths, (names p).getLast? ≠ some s

instance (path : String) : Decidable (EndsApart path) :=
  inferInstanceAs (Decidable (∃ s ∈ (names path).getLast?, _ ∧ _))

section EndsApart
variable {directory path : String}

theorem EndsApart.path_not_mem (h : EndsApart path) : path ∉ reservedPaths := by
  obtain ⟨s, hs, -, hname⟩ := h
  exact fun hpath => hname path hpath hs

theorem EndsApart.append (h : EndsApart path) : EndsApart (directory ++ "/" ++ path) := by
  unfold EndsApart
  rw [names_append, List.getLast?_append_of_ne_nil _ (names_ne_nil path)]
  exact h

theorem EndsApart.outputPath {f : File} (h : EndsApart f.path) {l : Layout}
    (hpath : f.outputPath l = .ok path) : EndsApart path := by
  obtain ⟨s, hs, hplain, hname⟩ := h
  exact ⟨s, File.getLast?_outputPath hpath hplain hs, hplain, hname⟩

end EndsApart

/-! ## Footprints -/

/-- No file in a footprint is where a root file or a document is, wherever files are put. -/
structure Apart (s : Footprint) (m : Mappings) : Prop where
  site : ∀ site ∈ s.sites, EndsApart (site.mapped m).path
  doc : ∀ path ∈ s.docs, IsPlain path ∧ path ∈ docPaths

instance (path : String) : Decidable (IsPlain path) :=
  inferInstanceAs (Decidable (∀ s ∈ names path, IsPlainName s))

instance (s : Footprint) (m : Mappings) : Decidable (Apart s m) :=
  decidable_of_iff ((∀ site ∈ s.sites, EndsApart (site.mapped m).path) ∧
      ∀ path ∈ s.docs, IsPlain path ∧ path ∈ docPaths)
    ⟨fun h => ⟨h.1, h.2⟩, fun h => ⟨h.site, h.doc⟩⟩

theorem Frontend.endsApart_sitesIn {directory : String} {names : List String}
    (h : ∀ name ∈ names, EndsApart name) :
    ∀ site ∈ sitesIn directory names, EndsApart site.path := by
  unfold sitesIn
  rw [List.forall_mem_map]
  intro name hname
  rw [← String.append_assoc]
  exact (h name hname).append

theorem Frontend.apart (l : Layout) : Apart (footprint l) plugin.mappings := by
  constructor
  · have hparts : ∀ site ∈ partSites, EndsApart site.path := by decide +kernel
    have hroot : ∀ site ∈ rootSites l, EndsApart site.path :=
      List.forall_mem_append.mpr
        ⟨endsApart_sitesIn (by decide +kernel), endsApart_sitesIn (by decide +kernel)⟩
    simp only [site_mapped]
    exact List.forall_mem_append.mpr ⟨hroot, hparts⟩
  · change ∀ path ∈ ["docs/frontend/README.md"], IsPlain path ∧ path ∈ docPaths
    decide +kernel

theorem apart_of_mem {e : Plugin × (Layout → Footprint)} (he : e ∈ footprints) (l : Layout) :
    Apart (e.2 l) e.1.mappings := by
  simp only [footprints, List.mem_cons, List.not_mem_nil, or_false] at he
  rcases he with rfl | rfl | rfl | rfl | rfl | rfl
  · exact Frontend.apart l
  · change Apart WalletAuth.footprint WalletAuth.plugin.mappings
    decide +kernel
  · change Apart NftContract.footprint NftContract.plugin.mappings
    decide +kernel
  · change Apart TelegramNotifications.footprint TelegramNotifications.plugin.mappings
    decide +kernel
  · change Apart TelegramCommands.footprint TelegramCommands.plugin.mappings
    decide +kernel
  · change Apart QualityGates.footprint QualityGates.plugin.mappings
    decide +kernel

end BuiltIn

/-! ## Finished runs -/

namespace Job.Finished
variable {j : Job} {css : List (List Call)} {rs : List NodeResult}

/-- The output of a node lies in the footprint of its plugin. -/
theorem exists_within (h : j.Finished css rs) {x : NodeResult} (hx : x ∈ rs) :
    ∃ e ∈ BuiltIn.footprints, j.registry.get? x.nodeKind = some e.1 ∧ e.1.id = x.nodeKind ∧
      x.output.Within (e.2 j.layout) := by
  obtain ⟨c, hc, -, hkind, hresult⟩ := h.mem_results_iff.mp hx
  obtain ⟨-, hget, -, -, hlayout⟩ := h.of_call hc
  obtain ⟨hplugin, hid⟩ := h.plugin_mem hc
  rw [← BuiltIn.map_fst_footprints] at hplugin
  obtain ⟨e, he, hsame⟩ := List.mem_map.mp hplugin
  have hwithin : x.output.Within (e.2 c.context.layout) := by
    rcases BuiltIn.keepsTo_of_mem he c.node c.context with ⟨o, ho, hwithin⟩ | ⟨-, -, hoverlong⟩
    · rw [hsame, hresult] at ho
      exact Returned.output.inj (Except.ok.inj ho) ▸ hwithin
    · rw [hsame, hresult] at hoverlong
      cases hoverlong
  rw [hlayout] at hwithin
  refine ⟨e, he, ?_, ?_, hwithin⟩
  · rw [h.registry_eq, hkind, hget, hsame]
  · rw [hsame, hid, hkind]

section Paths
variable {x : NodeResult} {path : String}

/-- No file of a node goes where a root file or a document is. -/
theorem path_not_mem_reservedPaths (h : j.Finished css rs) (hx : x ∈ rs) {p : Plugin} {f : File}
    (hp : j.registry.get? x.nodeKind = some p) (hf : f ∈ x.output.files)
    (hpath : (f.mapped p.mappings).outputPath j.layout = .ok path) :
    path ∉ BuiltIn.reservedPaths := by
  obtain ⟨e, he, hget, -, hwithin⟩ := h.exists_within hx
  obtain rfl : e.1 = p := Option.some.inj (hget.symm.trans hp)
  have hsite : (f.mapped e.1.mappings).path = (f.site.mapped e.1.mappings).path :=
    congrArg Site.path (File.site_mapped f e.1.mappings)
  have hplace : BuiltIn.EndsApart (f.mapped e.1.mappings).path :=
    hsite ▸ (BuiltIn.apart_of_mem he j.layout).site f.site (hwithin.site_mem f hf)
  exact (hplace.outputPath hpath).path_not_mem

theorem path_mem_docPaths (h : j.Finished css rs) (hx : x ∈ rs) {d : Doc} (hd : d ∈ x.output.docs)
    (hpath : Path.normalize d.path = .ok path) : path ∈ BuiltIn.docPaths := by
  obtain ⟨e, he, -, -, hwithin⟩ := h.exists_within hx
  obtain ⟨hplain, hmem⟩ := (BuiltIn.apart_of_mem he j.layout).doc d.path (hwithin.path_mem d hd)
  rw [hplain.normalize_eq] at hpath
  exact Except.ok.inj hpath ▸ hmem

/-- No node emits anything where a root file is. -/
theorem path_not_mem_paths (h : j.Finished css rs) (hx : x ∈ rs) {content : String}
    (hemits : x.Emits j path content) : path ∉ RootFiles.paths := by
  cases hemits with
  | file hp hf hpath =>
    exact fun hroot => h.path_not_mem_reservedPaths hx hp hf hpath (List.mem_append_left _ hroot)
  | doc hdocs hd hpath =>
    exact BuiltIn.not_root_of_mem_docPaths path (h.path_mem_docPaths hx hd hpath)

end Paths

/-- Where outputs agree, the root files can be added if they can be written. -/
theorem exists_tree (h : j.Finished css rs) {cs : List Contribution}
    (hwrites : j.blueprint.resolvedSettings.WritesOverview)
    (hcs : List.Forall₂ (fun x c => j.contribution x = .ok c) rs cs) {merged : ProjectTree}
    (hmerged : ProjectTree.ofContributions cs j.blueprint.resolvedSettings.generateDocs =
      .ok merged) : ∃ t, j.tree cs = .ok t := by
  have hrecorded := ProjectTree.recorded_ofContributions hmerged
  have hplaces {path node content : String} (hput : Placement.ofContributions cs
      j.blueprint.resolvedSettings.generateDocs node path content) : path ∉ RootFiles.paths := by
    obtain ⟨x, hx, -, hemits⟩ := (ofContributions_iff_emits hcs).mp hput
    exact h.path_not_mem_paths hx hemits
  -- A path holds what nodes emit or a root file, never both, and the root files are distinct.
  have hfree (path : String) : ¬Placement.Contested
      ((Placement.ofContributions cs j.blueprint.resolvedSettings.generateDocs).withFiles rootOrigin
        (RootFiles.files merged j.blueprint.resolvedSettings j.blueprint j.registry)) path := by
    rintro ⟨n, m, v, w, hv | ⟨-, f, hf, rfl, rfl⟩, hw | ⟨-, g, hg, hsame, rfl⟩, hne⟩
    · exact hrecorded.not_contested path ⟨n, m, v, w, hv, hw, hne⟩
    · exact hplaces hv (hsame ▸ RootFiles.path_mem_paths hg)
    · exact hplaces hw (RootFiles.path_mem_paths hf)
    · have hnodup := RootFiles.nodup_paths merged j.blueprint.resolvedSettings j.blueprint
        j.registry
      exact hne (congrArg File.content (List.inj_on_of_nodup_map hnodup hf hg hsame.symm))
  obtain ⟨whole, hwhole⟩ := (ProjectTree.exists_addFiles_iff hrecorded).mpr hfree
  exact ⟨_, tree_eq_ok.mpr ⟨hwrites, merged, whole, hmerged, hwhole, rfl⟩⟩

/-- A run has a tree exactly if the overview can be written and its outputs can be routed and
agree. -/
theorem exists_assemble_iff (h : j.Finished css rs) : (∃ t, j.assemble rs = .ok t) ↔
    j.blueprint.resolvedSettings.WritesOverview ∧
      ∃ cs, List.Forall₂ (fun x c => j.contribution x = .ok c) rs cs ∧
      ∀ topic key, ¬Disputed cs j.blueprint.resolvedSettings.generateDocs topic key := by
  simp only [← ProjectTree.exists_ofContributions_iff]
  constructor
  · rintro ⟨t, ht⟩
    obtain ⟨cs, hcs, htree⟩ := assemble_eq_ok.mp ht
    obtain ⟨hwrites, merged, -, hmerged, -⟩ := tree_eq_ok.mp htree
    exact ⟨hwrites, cs, hcs, merged, hmerged⟩
  · rintro ⟨hwrites, cs, hcs, merged, hmerged⟩
    obtain ⟨t, ht⟩ := h.exists_tree hwrites hcs hmerged
    exact ⟨t, assemble_eq_ok.mpr ⟨cs, hcs, ht⟩⟩

end Job.Finished
end ProjectComposer
