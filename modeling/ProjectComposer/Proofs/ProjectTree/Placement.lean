import ProjectComposer.Proofs.Except
import ProjectComposer.Proofs.ProjectTree.Groups
import ProjectComposer.Proofs.Table

/-!
Placements: which node puts which content at which path. The two tables of a tree record a placement
if the one finds exactly the contents put at a path, so one content at most, and the other lists
exactly the nodes that put something there. Merging records what the contributions place, and adding
files records these files as placed by their origin besides all that was recorded before.
-/
namespace ProjectComposer
set_option autoImplicit false

/-- Who puts what where: a node, a path, a content. -/
abbrev Placement := String → String → String → Prop

namespace Placement

structure Recorded (P : Placement) (files : Table String) (origins : Table (List String)) :
    Prop where
  nodup_paths : files.keys.Nodup
  paths_eq : origins.keys = files.keys
  content_iff : ∀ path content, files.get? path = some content ↔ ∃ node, P node path content
  pairwise_nodes : ∀ path nodes, origins.get? path = some nodes → nodes.Pairwise (· < ·)
  node_iff : ∀ path nodes, origins.get? path = some nodes →
    ∀ node, node ∈ nodes ↔ ∃ content, P node path content

/-- A placement with files besides, all from one origin. -/
def withFiles (P : Placement) (origin : String) (files : List File) : Placement :=
  fun node path content =>
    P node path content ∨ node = origin ∧ ∃ f ∈ files, f.path = path ∧ f.content = content

section WithFiles
variable {P : Placement} {origin : String}

theorem withFiles_nil : P.withFiles origin [] = P := by
  funext node path content
  simp [withFiles]

theorem withFiles_concat (fs : List File) (f : File) :
    (P.withFiles origin fs).withFiles origin [f] = P.withFiles origin (fs ++ [f]) := by
  funext node path content
  simp only [withFiles, List.mem_append, or_and_right, exists_or, and_or_left, or_assoc]

theorem withFiles_congr {fs gs : List File} (h : ∀ f, f ∈ fs ↔ f ∈ gs) :
    P.withFiles origin fs = P.withFiles origin gs := by
  funext node path content
  simp only [withFiles, h]

end WithFiles

namespace Recorded
variable {P : Placement} {files : Table String} {origins : Table (List String)}

theorem mem_paths_iff (h : P.Recorded files origins) {path : String} :
    path ∈ files.keys ↔ ∃ node content, P node path content := by
  rw [Table.mem_keys_iff_get?]
  simp only [h.content_iff]
  exact exists_comm

/-- The order of the paths does not matter to what is recorded. -/
theorem perm (h : P.Recorded files origins) {files' : Table String}
    {origins' : Table (List String)} (hfiles : files'.Perm files)
    (horigins : origins'.Perm origins) (hpaths : origins'.keys = files'.keys) :
    P.Recorded files' origins' := by
  have hnodup : files'.keys.Nodup := (hfiles.map Prod.fst).nodup_iff.mpr h.nodup_paths
  have hfind := Table.get?_perm hfiles hnodup
  have hfind' := Table.get?_perm horigins (hpaths ▸ hnodup)
  refine ⟨hnodup, hpaths, ?_, ?_, ?_⟩
  · intro path content
    rw [hfind, h.content_iff]
  · intro path nodes hnodes
    rw [hfind'] at hnodes
    exact h.pairwise_nodes path nodes hnodes
  · intro path nodes hnodes
    rw [hfind'] at hnodes
    exact h.node_iff path nodes hnodes

end Recorded
end Placement

/-! ## Contributions -/

/-- What a contribution puts at a path: a file, or a document where they are included. -/
inductive Contribution.Puts (c : Contribution) (docs : Bool) : String → String → Prop
  | file {f : File} (h : f ∈ c.output.files) : c.Puts docs f.path f.content
  | doc {d : Doc} (hdocs : docs = true) (h : d ∈ c.output.docs) :
      c.Puts docs d.path ("# " ++ d.title ++ "\n\n" ++ d.content)

/-- What contributions place. -/
def Placement.ofContributions (cs : List Contribution) (docs : Bool) : Placement :=
  fun node path content => ∃ c ∈ cs, c.nodeId = node ∧ c.Puts docs path content

namespace Merge

theorem mem_entries_offered {α : Type} {cs : List Contribution} {artifacts : Output → List α}
    {place value : α → String} {path : String} {e : Entry} :
    (path, e) ∈ (offered cs artifacts).map (fun a => (place a.2, entry value a)) ↔
      ∃ c ∈ cs, ∃ a ∈ artifacts c.output, place a = path ∧
        e = ⟨c.nodeId, c.pluginId, value a⟩ := by
  simp only [List.mem_map, mem_offered, Prod.exists, Prod.mk.injEq, entry]
  constructor
  · rintro ⟨c, a, ⟨hc, ha⟩, hpath, rfl⟩
    exact ⟨c, hc, a, ha, hpath, rfl⟩
  · rintro ⟨c, hc, a, ha, hpath, rfl⟩
    exact ⟨c, a, ⟨hc, ha⟩, hpath, rfl⟩

theorem mem_pathEntries {cs : List Contribution} {docs : Bool} {path : String} {e : Entry} :
    (path, e) ∈ pathEntries cs docs ↔
      ∃ c ∈ cs, c.nodeId = e.nodeId ∧ c.pluginId = e.pluginId ∧ c.Puts docs path e.value := by
  rw [pathEntries, List.mem_append, mem_entries_offered]
  constructor
  · rintro (⟨c, hc, f, hf, rfl, rfl⟩ | h)
    · exact ⟨c, hc, rfl, rfl, .file hf⟩
    · split at h
      · next hon =>
        obtain ⟨c, hc, d, hd, rfl, rfl⟩ := mem_entries_offered.mp h
        exact ⟨c, hc, rfl, rfl, .doc hon hd⟩
      · exact (List.not_mem_nil h).elim
  · obtain ⟨node, plugin, value⟩ := e
    rintro ⟨c, hc, rfl, rfl, hputs⟩
    cases hputs with
    | file hf => exact .inl ⟨c, hc, _, hf, rfl, rfl⟩
    | doc hon hd =>
      rw [if_pos hon]
      exact .inr (mem_entries_offered.mpr ⟨c, hc, _, hd, rfl, rfl⟩)

theorem mem_paths {cs : List Contribution} {docs : Bool} {path : String} :
    path ∈ (pathEntries cs docs).map Prod.fst ↔
      ∃ node content, Placement.ofContributions cs docs node path content := by
  simp only [List.mem_map, Prod.exists]
  constructor
  · rintro ⟨path', e, hmem, rfl⟩
    obtain ⟨c, hc, -, -, hputs⟩ := mem_pathEntries.mp hmem
    exact ⟨c.nodeId, e.value, c, hc, rfl, hputs⟩
  · rintro ⟨-, content, c, hc, rfl, hputs⟩
    exact ⟨path, ⟨c.nodeId, c.pluginId, content⟩, mem_pathEntries.mpr ⟨c, hc, rfl, rfl, hputs⟩, rfl⟩

/-- The group of a path. -/
def entriesAt (cs : List Contribution) (docs : Bool) (path : String) : List (String × Entry) :=
  (pathEntries cs docs).filter fun e => e.1 = path

theorem mem_entriesAt {cs : List Contribution} {docs : Bool} {path : String} {e : Entry} :
    e ∈ (entriesAt cs docs path).map Prod.snd ↔
      ∃ c ∈ cs, c.nodeId = e.nodeId ∧ c.pluginId = e.pluginId ∧ c.Puts docs path e.value := by
  rw [← mem_pathEntries, entriesAt]
  simp only [List.mem_map, List.mem_filter, decide_eq_true_eq]
  constructor
  · rintro ⟨⟨path', e⟩, ⟨hmem, rfl⟩, rfl⟩
    exact hmem
  · intro hmem
    exact ⟨_, ⟨hmem, rfl⟩, rfl⟩

theorem path_mergePath {path : String} {es : List (String × Entry)} {p : Placed}
    (h : mergePath path es = .ok p) : p.path = path := by
  obtain ⟨content, -, hp⟩ := bind_eq_ok.mp h
  rw [← pure_eq_ok.mp hp]

theorem mergePath_eq_ok {path : String} {es : List (String × Entry)} {p : Placed} (hne : es ≠ []) :
    mergePath path es = .ok p ↔
      (∀ e ∈ es.map Prod.snd, e.value = p.content) ∧
        p = ⟨path, p.content, nodes (es.map Prod.snd)⟩ := by
  have hne' : es.map Prod.snd ≠ [] := fun h => hne (List.map_eq_nil_iff.mp h)
  unfold mergePath
  simp only [bind_eq_ok, pure_eq_ok, agreed_eq_ok]
  constructor
  · rintro ⟨content, ⟨hnil, -⟩ | ⟨v, rfl, -, hall⟩, rfl⟩
    · exact (hne' hnil).elim
    · exact ⟨hall, rfl⟩
  · rintro ⟨hall, hp⟩
    exact ⟨some p.content, .inr ⟨p.content, rfl, hne', hall⟩, hp.symm⟩

/-- What is placed at a path: the content of all entries there, and their nodes. -/
theorem mem_placed {cs : List Contribution} {docs : Bool} {p : Placed} :
    p ∈ merged (byKey Prod.fst mergePath (pathEntries cs docs)) ↔
      (∃ node content, Placement.ofContributions cs docs node p.path content) ∧
        (∀ e ∈ (entriesAt cs docs p.path).map Prod.snd, e.value = p.content) ∧
        p.origins = nodes ((entriesAt cs docs p.path).map Prod.snd) := by
  rw [mem_merged_byKey, ← mem_paths]
  have hgroup : ∀ path ∈ (pathEntries cs docs).map Prod.fst, entriesAt cs docs path ≠ [] := by
    intro path hpath
    obtain ⟨e, he, rfl⟩ := List.mem_map.mp hpath
    exact List.ne_nil_of_mem (List.mem_filter.mpr ⟨he, decide_eq_true rfl⟩)
  constructor
  · rintro ⟨path, hpath, h⟩
    obtain rfl := path_mergePath h
    obtain ⟨hall, hp⟩ := (mergePath_eq_ok (hgroup _ hpath)).mp h
    exact ⟨hpath, hall, congrArg Placed.origins hp⟩
  · rintro ⟨hpath, hall, horigins⟩
    refine ⟨p.path, hpath, (mergePath_eq_ok (hgroup _ hpath)).mpr ⟨hall, ?_⟩⟩
    rw [← horigins]

section Placed
variable {cs : List Contribution} {docs : Bool} {p : Placed} {node content : String}

theorem content_placed (hp : p ∈ merged (byKey Prod.fst mergePath (pathEntries cs docs)))
    (h : Placement.ofContributions cs docs node p.path content) : content = p.content := by
  obtain ⟨-, hall, -⟩ := mem_placed.mp hp
  obtain ⟨c, hc, hnode, hputs⟩ := h
  exact hall ⟨node, c.pluginId, content⟩ (mem_entriesAt.mpr ⟨c, hc, hnode, rfl, hputs⟩)

theorem mem_origins_placed (hp : p ∈ merged (byKey Prod.fst mergePath (pathEntries cs docs))) :
    node ∈ p.origins ↔ ∃ content, Placement.ofContributions cs docs node p.path content := by
  obtain ⟨-, -, horigins⟩ := mem_placed.mp hp
  rw [horigins, nodes, Text.mem_sortedDistinct, List.mem_map]
  constructor
  · rintro ⟨e, he, rfl⟩
    obtain ⟨c, hc, hnode, -, hputs⟩ := mem_entriesAt.mp he
    exact ⟨e.value, c, hc, hnode, hputs⟩
  · rintro ⟨content, c, hc, hnode, hputs⟩
    exact ⟨⟨node, c.pluginId, content⟩, mem_entriesAt.mpr ⟨c, hc, hnode, rfl, hputs⟩, rfl⟩

theorem pairwise_origins_placed
    (hp : p ∈ merged (byKey Prod.fst mergePath (pathEntries cs docs))) :
    p.origins.Pairwise (· < ·) := by
  obtain ⟨-, -, horigins⟩ := mem_placed.mp hp
  rw [horigins]
  exact Text.pairwise_sortedDistinct _

end Placed
end Merge

/-! ## Merging -/

namespace ProjectTree
open Merge

theorem ofContributions_eq_ok {cs : List Contribution} {docs : Bool} {t : ProjectTree} :
    ofContributions cs docs = .ok t ↔
      (faults (byKey Prod.fst mergePath (pathEntries cs docs)) = [] ∧
        faults (byKey (·.2.key) mergeEnvVar (offered cs (·.envVars))) = [] ∧
        faults (byKey (·.2.name) mergeScript (offered cs (·.scripts))) = [] ∧
        faults (byKey (·.2.name) mergeDependency (offered cs (·.dependencies))) = []) ∧
      let placed := merged (byKey Prod.fst mergePath (pathEntries cs docs))
      let origins := placed.map fun p => (p.path, p.origins)
      t = {
        files := placed.map fun p => (p.path, p.content)
        origins := origins
        envVars := merged (byKey (·.2.key) mergeEnvVar (offered cs (·.envVars)))
        scripts := merged (byKey (·.2.name) mergeScript (offered cs (·.scripts)))
        docs := if docs then docIndex cs origins else []
        dependencies :=
          merged (byKey (·.2.name) mergeDependency (offered cs (·.dependencies))) } := by
  unfold ofContributions
  simp only [bind_eq_ok, raiseFirst_eq_ok, pure_eq_ok, List.append_eq_nil_iff, exists_const,
    and_assoc]
  constructor
  · rintro ⟨hp, he, hs, hd, rfl⟩
    exact ⟨hp, he, hs, hd, rfl⟩
  · rintro ⟨hp, he, hs, hd, rfl⟩
    exact ⟨hp, he, hs, hd, rfl⟩

section OfContributions
variable {cs : List Contribution} {docs : Bool} {t : ProjectTree}

theorem keys_ofContributions (h : ofContributions cs docs = .ok t) :
    t.files.keys = Text.sortedDistinct ((pathEntries cs docs).map Prod.fst) ∧
      t.origins.keys = t.files.keys := by
  obtain ⟨⟨hpaths, -⟩, rfl⟩ := ofContributions_eq_ok.mp h
  refine ⟨?_, ?_⟩
  · rw [← map_merged_byKey (fun _ _ _ => path_mergePath) hpaths]
    simp [Table.keys, Function.comp_def]
  · simp [Table.keys, Function.comp_def]

theorem recorded_ofContributions (h : ofContributions cs docs = .ok t) :
    (Placement.ofContributions cs docs).Recorded t.files t.origins := by
  obtain ⟨hkeys, hsame⟩ := keys_ofContributions h
  have hnodup : t.files.keys.Nodup := hkeys ▸ Text.nodup_sortedDistinct _
  obtain ⟨⟨hpaths, -⟩, rfl⟩ := ofContributions_eq_ok.mp h
  have hnames :
      ((merged (byKey Prod.fst mergePath (pathEntries cs docs))).map Placed.path).Nodup := by
    simpa [Table.keys, Function.comp_def] using hnodup
  refine ⟨hnodup, hsame, ?_, ?_, ?_⟩
  · intro path content
    rw [Table.get?_map_pair hnames]
    constructor
    · rintro ⟨p, hp, rfl, rfl⟩
      obtain ⟨⟨node, content, hput⟩, -⟩ := mem_placed.mp hp
      rw [← content_placed hp hput]
      exact ⟨node, hput⟩
    · rintro ⟨node, hput⟩
      obtain ⟨p, hp, hmerge⟩ := exists_mem_merged_byKey hpaths (mem_paths.mpr ⟨node, content, hput⟩)
      obtain rfl := path_mergePath hmerge
      exact ⟨p, hp, rfl, (content_placed hp hput).symm⟩
  · intro path nodes hnodes
    obtain ⟨p, hp, rfl, rfl⟩ := (Table.get?_map_pair hnames).mp hnodes
    exact pairwise_origins_placed hp
  · intro path nodes hnodes node
    obtain ⟨p, hp, rfl, rfl⟩ := (Table.get?_map_pair hnames).mp hnodes
    exact mem_origins_placed hp

end OfContributions
end ProjectTree
end ProjectComposer
