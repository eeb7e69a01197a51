import ProjectComposer.Proofs.ProjectTree.Disputes
import ProjectComposer.Proofs.ProjectTree.OrderFree
import ProjectComposer.Proofs.ProjectTree.Reported
import ProjectComposer.ProjectTree.RootFiles

/-!
Adding files to a tree and merging once more. Main statement: files can be added to the tree of some
contributions exactly if these can be merged together with one more that holds the files, and both
come to the same files and origins. Where no path is added twice, both are refused with the same
fault.
-/
namespace ProjectComposer
set_option autoImplicit false

/-! ## One more contribution -/

/-- Files on their own, from a node that is its own plugin. -/
def Contribution.ofFiles (origin : String) (files : List File) : Contribution :=
  ⟨origin, origin, { files := files }⟩

@[simp] theorem Contribution.nodeId_ofFiles (origin : String) (files : List File) :
    (ofFiles origin files).nodeId = origin := rfl

/-- Every node contributes through one plugin, and the table tells which. -/
def AssignsPlugins (plugins : Table String) (cs : List Contribution) : Prop :=
  ∀ node plugin, plugins.get? node = some plugin ↔
    ∃ c ∈ cs, c.nodeId = node ∧ c.pluginId = plugin

/-- Two contents are put at one path. -/
def Placement.Contested (P : Placement) (path : String) : Prop :=
  ∃ n m v w, P n path v ∧ P m path w ∧ v ≠ w

section OneMore
variable {cs : List Contribution} {docs : Bool} {origin : String} {fs : List File}

theorem puts_ofFiles {path content : String} :
    (Contribution.ofFiles origin fs).Puts docs path content ↔
      ∃ f ∈ fs, f.path = path ∧ f.content = content := by
  constructor
  · intro h
    cases h with
    | file hf => exact ⟨_, hf, rfl, rfl⟩
    | doc _ hd => cases hd
  · rintro ⟨f, hf, rfl, rfl⟩
    exact .file hf

/-- Files on their own have no part in any dispute but one over a content. -/
theorem topic_eq_of_proposes_ofFiles {topic : Topic} {key value : String}
    (h : (Contribution.ofFiles origin fs).Proposes docs topic key value) : topic = .content := by
  cases topic with
  | content => rfl
  | default =>
    obtain ⟨_, hv, -⟩ := proposes_default.mp h
    cases hv
  | command =>
    obtain ⟨_, hs, -⟩ := proposes_command.mp h
    cases hs
  | version =>
    obtain ⟨_, hd, -⟩ := proposes_version.mp h
    cases hd

theorem placement_concat_ofFiles :
    Placement.ofContributions (cs ++ [.ofFiles origin fs]) docs =
      (Placement.ofContributions cs docs).withFiles origin fs := by
  funext node path content
  simp only [Placement.ofContributions, Placement.withFiles, List.mem_append, List.mem_singleton,
    or_and_right, exists_or, exists_eq_left, Contribution.nodeId_ofFiles, puts_ofFiles,
    eq_comm (a := origin)]

theorem disputed_content_iff {path : String} :
    Disputed cs docs .content path ↔ (Placement.ofContributions cs docs).Contested path := by
  constructor
  · rintro ⟨c, hc, d, hd, v, w, hv, hw, hne⟩
    exact ⟨c.nodeId, d.nodeId, v, w, ⟨c, hc, rfl, proposes_content.mp hv⟩,
      ⟨d, hd, rfl, proposes_content.mp hw⟩, hne⟩
  · rintro ⟨-, -, v, w, ⟨c, hc, -, hv⟩, ⟨d, hd, -, hw⟩, hne⟩
    exact ⟨c, hc, d, hd, v, w, .content hv, .content hw, hne⟩

/-- Where contributions agree, files can only bring a dispute over a content. -/
theorem disputed_concat_ofFiles (h : ∀ topic key, ¬Disputed cs docs topic key) {topic : Topic}
    {key : String} : Disputed (cs ++ [.ofFiles origin fs]) docs topic key ↔
      topic = .content ∧
        ((Placement.ofContributions cs docs).withFiles origin fs).Contested key := by
  rw [← placement_concat_ofFiles, ← disputed_content_iff]
  constructor
  · intro hdisputed
    have htopic : topic = .content := by
      obtain ⟨c, hc, d, hd, v, w, hv, hw, hne⟩ := hdisputed
      rcases List.mem_append.mp hc with hc | hc
      · rcases List.mem_append.mp hd with hd | hd
        · exact (h topic key ⟨c, hc, d, hd, v, w, hv, hw, hne⟩).elim
        · obtain rfl := List.mem_singleton.mp hd
          exact topic_eq_of_proposes_ofFiles hw
      · obtain rfl := List.mem_singleton.mp hc
        exact topic_eq_of_proposes_ofFiles hv
    exact ⟨htopic, htopic ▸ hdisputed⟩
  · rintro ⟨rfl, hdisputed⟩
    exact hdisputed

end OneMore

/-! ## Recorded placements -/

namespace Placement
variable {P : Placement} {files files' : Table String} {origins origins' : Table (List String)}

theorem Recorded.not_contested (h : P.Recorded files origins) (path : String) :
    ¬P.Contested path := by
  rintro ⟨n, m, v, w, hv, hw, hne⟩
  have hfound := (h.content_iff path v).mpr ⟨n, hv⟩
  rw [(h.content_iff path w).mpr ⟨m, hw⟩] at hfound
  exact hne (Option.some.inj hfound).symm

theorem Recorded.listsInOrder (h : P.Recorded files origins) {path : String}
    {nodes : List String} (hnodes : origins.get? path = some nodes) :
    Text.ListsInOrder nodes fun node => ∃ content, P node path content :=
  ⟨h.pairwise_nodes path nodes hnodes, h.node_iff path nodes hnodes⟩

/-- A placement is recorded in one way only, once the paths are in order. -/
theorem Recorded.unique (h : P.Recorded files origins) (h' : P.Recorded files' origins')
    (hsorted : files.keys.Pairwise (· < ·)) (hsorted' : files'.keys.Pairwise (· < ·)) :
    files = files' ∧ origins = origins' := by
  have hpaths : files.keys = files'.keys :=
    Text.ListsInOrder.unique ⟨hsorted, fun _ => h.mem_paths_iff⟩
      ⟨hsorted', fun _ => h'.mem_paths_iff⟩
  have horigins : origins.keys = origins'.keys := by rw [h.paths_eq, h'.paths_eq, hpaths]
  refine ⟨Table.ext hpaths h.nodup_paths fun path _ => Option.ext fun content => ?_,
    Table.ext horigins (h.paths_eq ▸ h.nodup_paths) fun path hpath => ?_⟩
  · rw [h.content_iff, h'.content_iff]
  · obtain ⟨nodes, hnodes⟩ := Table.mem_keys_iff_get?.mp hpath
    obtain ⟨nodes', hnodes'⟩ := Table.mem_keys_iff_get?.mp (horigins ▸ hpath)
    rw [hnodes, hnodes', (h.listsInOrder hnodes).unique (h'.listsInOrder hnodes')]

end Placement

/-! ## Success -/

theorem RootFiles.nodup_paths (t : ProjectTree) (s : Settings) (b : Blueprint) (r : Registry) :
    ((files t s b r).map File.path).Nodup := by
  unfold files
  split <;> simp

namespace ProjectTree
open Merge

section Success
variable {P : Placement} {origin : String} {plugins : Table String} {t : ProjectTree}
  {fs : List File}

/-- Of the files taken so far, either all are recorded or two contents meet at one path. -/
theorem Extension.recorded_or_contested {x x' : Extension}
    (h : fs.foldlM (Extension.add origin plugins) x = .ok x') (hclear : x.collisions = [])
    (hx : P.Recorded x.files x.origins) :
    x'.collisions = [] ∨ ∃ path, (P.withFiles origin fs).Contested path := by
  have hrun : (x'.collisions = [] ∧ (P.withFiles origin fs).Recorded x'.files x'.origins) ∨
      ∃ path, (P.withFiles origin fs).Contested path := by
    refine foldlM_preserves (fun done s =>
      (s.collisions = [] ∧ (P.withFiles origin done).Recorded s.files s.origins) ∨
        ∃ path, (P.withFiles origin done).Contested path) ?_ ?_ h
    · intro done f s s' hdone hadd
      rw [← Placement.withFiles_concat]
      rcases hdone with ⟨hs, hrecorded⟩ | ⟨path, n, m, v, w, hv, hw, hne⟩
      · rcases add_eq_ok.mp hadd with ⟨hnew, rfl⟩ | ⟨present, hfile, hnodes, rfl⟩ |
          ⟨content, present, hfile, hne, hnodes, rfl⟩
        · exact .inl ⟨hs, hrecorded.put_new hnew⟩
        · exact .inl ⟨hs, hrecorded.put_again hfile hnodes⟩
        · obtain ⟨node, hput⟩ := (hrecorded.content_iff _ _).mp hfile
          exact .inr ⟨f.path, node, origin, content, f.content, .inl hput,
            .inr ⟨rfl, f, List.mem_singleton_self f, rfl, rfl⟩, hne⟩
      · exact .inr ⟨path, n, m, v, w, .inl hv, .inl hw, hne⟩
    · rw [Placement.withFiles_nil]
      exact .inl ⟨hclear, hx⟩
  exact hrun.imp_left And.left

theorem exists_foldlM_add (h : t.origins.keys = t.files.keys) (origin : String)
    (plugins : Table String) (fs : List File) :
    ∃ x, (Text.sortByKey File.path fs).foldlM (Extension.add origin plugins)
      ⟨t.files, t.origins, []⟩ = .ok x := by
  have hstart : Extension.Sound ⟨t.files, t.origins, []⟩ := ⟨h, by simp⟩
  obtain ⟨x, hx, -⟩ := exists_foldlM
    (fun x f hx => Extension.exists_add hx origin plugins f) (Text.sortByKey File.path fs) hstart
  exact ⟨x, hx⟩

/-- Files can be added where no two contents meet at one path. -/
theorem exists_addFiles_iff (h : P.Recorded t.files t.origins) :
    (∃ t', t.addFiles fs origin plugins = .ok t') ↔
      ∀ path, ¬(P.withFiles origin fs).Contested path := by
  constructor
  · rintro ⟨t', ht'⟩
    exact (recorded_addFiles ht' h).1.not_contested
  · intro hfree
    obtain ⟨x, hx⟩ := exists_foldlM_add h.paths_eq origin plugins fs
    have hsorted : P.withFiles origin (Text.sortByKey File.path fs) = P.withFiles origin fs :=
      Placement.withFiles_congr fun f => (Text.perm_sortByKey fs).mem_iff
    rcases Extension.recorded_or_contested hx rfl h with hclear | ⟨path, hpath⟩
    · exact ⟨_, addFiles_eq_ok.mpr ⟨x, hx, hclear, rfl⟩⟩
    · exact (hfree path (hsorted ▸ hpath)).elim

end Success

/-! ## Collisions -/

section Collisions
variable {origin : String} {plugins : Table String} {t : ProjectTree} {fs : List File}

/-- The dispute between a file and a different content that a tree has at its path. -/
def clashWith (t : ProjectTree) (origin : String) (plugins : Table String) (f : File) :
    Option Dispute :=
  match t.files.get? f.path, t.origins.get? f.path with
  | some content, some present =>
    if content = f.content then none
    else some (.ofEntries .content f.path (clashEntries origin plugins f content present))
  | _, _ => none

theorem clashWith_eq_some {f : File} {d : Dispute} : t.clashWith origin plugins f = some d ↔
    ∃ content present, t.files.get? f.path = some content ∧
      t.origins.get? f.path = some present ∧ content ≠ f.content ∧
      d = .ofEntries .content f.path (clashEntries origin plugins f content present) := by
  unfold clashWith
  cases t.files.get? f.path with
  | none => simp
  | some content =>
    cases t.origins.get? f.path with
    | none => simp
    | some present =>
      by_cases hsame : content = f.content
      · simp [hsame]
      · simp [hsame, eq_comm]

/-- A tree that is being extended by files at different paths: away from these it is as it was, and
its collisions are those of the files with what was there before. -/
structure Extension.Meets (x : Extension) (t : ProjectTree) (origin : String)
    (plugins : Table String) (done : List File) : Prop where
  files : ∀ path, path ∉ done.map File.path → x.files.get? path = t.files.get? path
  origins : ∀ path, path ∉ done.map File.path → x.origins.get? path = t.origins.get? path
  collisions : x.collisions = (done.filterMap (t.clashWith origin plugins)).map Dispute.fault

theorem Extension.Meets.add {x x' : Extension} {done : List File} {f : File}
    (h : x.Meets t origin plugins done) (hf : f.path ∉ done.map File.path)
    (hadd : x.add origin plugins f = .ok x') : x'.Meets t origin plugins (done ++ [f]) := by
  have hrest {path : String} (hpath : path ∉ (done ++ [f]).map File.path) :
      path ∉ done.map File.path ∧ f.path ≠ path := by
    rw [List.map_append, List.mem_append, not_or] at hpath
    exact ⟨hpath.1, fun heq => hpath.2 (heq ▸ List.mem_singleton_self _)⟩
  have hcollisions (fault : List Fault)
      (hclash : ([f].filterMap (t.clashWith origin plugins)).map Dispute.fault = fault) :
      x.collisions ++ fault =
        ((done ++ [f]).filterMap (t.clashWith origin plugins)).map Dispute.fault := by
    rw [List.filterMap_append, List.map_append, h.collisions, hclash]
  rcases add_eq_ok.mp hadd with ⟨hnew, rfl⟩ | ⟨present, hfile, hnodes, rfl⟩ |
    ⟨content, present, hfile, hne, hnodes, rfl⟩
  · rw [h.files f.path hf] at hnew
    refine ⟨fun path hpath => ?_, fun path hpath => ?_, ?_⟩
    · rw [Table.get?_put, if_neg (hrest hpath).2, h.files path (hrest hpath).1]
    · rw [Table.get?_put, if_neg (hrest hpath).2, h.origins path (hrest hpath).1]
    · rw [← hcollisions [] (by simp [clashWith, hnew]), List.append_nil]
  · rw [h.files f.path hf] at hfile
    rw [h.origins f.path hf] at hnodes
    refine ⟨fun path hpath => h.files path (hrest hpath).1, fun path hpath => ?_, ?_⟩
    · rw [Table.get?_put, if_neg (hrest hpath).2, h.origins path (hrest hpath).1]
    · rw [← hcollisions [] (by simp [clashWith, hfile, hnodes]), List.append_nil]
  · rw [h.files f.path hf] at hfile
    rw [h.origins f.path hf] at hnodes
    have hclash : t.clashWith origin plugins f = some _ :=
      clashWith_eq_some.mpr ⟨content, present, hfile, hnodes, hne, rfl⟩
    refine ⟨fun path hpath => h.files path (hrest hpath).1,
      fun path hpath => h.origins path (hrest hpath).1, hcollisions _ ?_⟩
    rw [List.filterMap_cons_some hclash]
    rfl

theorem Extension.meets_foldlM {x : Extension} (hpaths : (fs.map File.path).Nodup)
    (h : fs.foldlM (Extension.add origin plugins) ⟨t.files, t.origins, []⟩ = .ok x) :
    x.Meets t origin plugins fs := by
  refine foldlM_preserves
    (fun done s => (done.map File.path).Nodup → s.Meets t origin plugins done) ?_ ?_ h hpaths
  · intro done f s s' hdone hadd hnodup
    rw [List.map_append, List.nodup_append] at hnodup
    obtain ⟨hnodup, -, hnew⟩ := hnodup
    exact (hdone hnodup).add (fun hmem => hnew _ hmem _ (List.mem_singleton_self _) rfl) hadd
  · exact fun _ => ⟨fun _ _ => rfl, fun _ _ => rfl, rfl⟩

end Collisions

/-! ## Agreement -/

section Agreement
variable {cs : List Contribution} {docs : Bool} {origin : String} {plugins : Table String}
  {t : ProjectTree} {fs : List File}

theorem mem_clashEntries (h : (Placement.ofContributions cs docs).Recorded t.files t.origins)
    (hplugins : AssignsPlugins plugins cs) (hpaths : (fs.map File.path).Nodup) {f : File}
    (hf : f ∈ fs) {content : String} {present : List String}
    (hfile : t.files.get? f.path = some content) (hnodes : t.origins.get? f.path = some present)
    {e : Entry} : e ∈ clashEntries origin plugins f content present ↔
      e ∈ entriesOf (cs ++ [.ofFiles origin fs]) docs .content f.path := by
  simp only [mem_entriesOf, proposes_content, clashEntries, List.mem_append, List.mem_map,
    List.mem_singleton, or_and_right, exists_or, exists_eq_left, puts_ofFiles]
  have hput {c : Contribution} {value : String} (hc : c ∈ cs) (hputs : c.Puts docs f.path value) :
      value = content := by
    have hfound := (h.content_iff _ _).mpr ⟨c.nodeId, c, hc, rfl, hputs⟩
    exact Option.some.inj (hfound.symm.trans hfile)
  have hplugin {c : Contribution} (hc : c ∈ cs) :
      (plugins.get? c.nodeId).getD c.nodeId = c.pluginId := by
    rw [(hplugins c.nodeId c.pluginId).mpr ⟨c, hc, rfl, rfl⟩, Option.getD_some]
  refine or_congr ?_ ?_
  · constructor
    · rintro ⟨node, hnode, rfl⟩
      obtain ⟨value, c, hc, rfl, hputs⟩ := (h.node_iff _ _ hnodes node).mp hnode
      exact ⟨c, hc, rfl, (hplugin hc).symm, hput hc hputs ▸ hputs⟩
    · obtain ⟨node, plugin, value⟩ := e
      rintro ⟨c, hc, rfl, rfl, hputs⟩
      obtain rfl := hput hc hputs
      refine ⟨c.nodeId, (h.node_iff _ _ hnodes _).mpr ⟨_, c, hc, rfl, hputs⟩, ?_⟩
      rw [hplugin hc]
  · constructor
    · rintro rfl
      exact ⟨rfl, rfl, f, hf, rfl, rfl⟩
    · obtain ⟨node, plugin, value⟩ := e
      rintro ⟨rfl, rfl, g, hg, hpath, rfl⟩
      obtain rfl : g = f := List.inj_on_of_nodup_map hpaths hg hf hpath
      rfl

/-- A file that meets a different content is in dispute with all who put that content there. -/
theorem clashWith_eq_disputeOver
    (h : (Placement.ofContributions cs docs).Recorded t.files t.origins)
    (hplugins : AssignsPlugins plugins cs) (hpaths : (fs.map File.path).Nodup) {f : File}
    (hf : f ∈ fs) {d : Dispute} (hd : t.clashWith origin plugins f = some d) :
    d = disputeOver (cs ++ [.ofFiles origin fs]) docs .content f.path := by
  obtain ⟨content, present, hfile, hnodes, -, rfl⟩ := clashWith_eq_some.mp hd
  exact Dispute.ofEntries_congr fun e => mem_clashEntries h hplugins hpaths hf hfile hnodes

theorem contested_withFiles_iff {P : Placement} (h : P.Recorded t.files t.origins)
    (plugins : Table String) (hpaths : (fs.map File.path).Nodup) {path : String} :
    (P.withFiles origin fs).Contested path ↔
      ∃ f ∈ fs, f.path = path ∧ ∃ d, t.clashWith origin plugins f = some d := by
  have hclash {f : File} {node content : String} (hput : P node f.path content)
      (hne : content ≠ f.content) : ∃ d, t.clashWith origin plugins f = some d := by
    have hfile := (h.content_iff _ _).mpr ⟨node, hput⟩
    have hpath : f.path ∈ t.origins.keys := h.paths_eq ▸ h.mem_paths_iff.mpr ⟨node, content, hput⟩
    obtain ⟨present, hnodes⟩ := Table.mem_keys_iff_get?.mp hpath
    exact ⟨_, clashWith_eq_some.mpr ⟨content, present, hfile, hnodes, hne, rfl⟩⟩
  constructor
  · rintro ⟨n, m, v, w, hv | ⟨-, f, hf, rfl, rfl⟩, hw | ⟨-, g, hg, hpath, rfl⟩, hne⟩
    · exact (h.not_contested path ⟨n, m, v, w, hv, hw, hne⟩).elim
    · exact ⟨g, hg, hpath, hclash (hpath ▸ hv) hne⟩
    · exact ⟨f, hf, rfl, hclash hw (Ne.symm hne)⟩
    · exact (hne (congrArg File.content (List.inj_on_of_nodup_map hpaths hf hg hpath.symm))).elim
  · rintro ⟨f, hf, rfl, d, hd⟩
    obtain ⟨content, present, hfile, -, hne, -⟩ := clashWith_eq_some.mp hd
    obtain ⟨node, hput⟩ := (h.content_iff _ _).mp hfile
    exact ⟨node, origin, content, f.content, .inl hput, .inr ⟨rfl, f, hf, rfl, rfl⟩, hne⟩

theorem disputes_concat_ofFiles (h : ofContributions cs docs = .ok t)
    (hplugins : AssignsPlugins plugins cs) (hpaths : (fs.map File.path).Nodup) :
    disputes (cs ++ [.ofFiles origin fs]) docs =
      (Text.sortByKey File.path fs).filterMap (t.clashWith origin plugins) := by
  have hrecorded := recorded_ofContributions h
  refine Dispute.eq_of_pairwise pairwise_disputes ?_ fun d => ?_
  · have hsorted := List.pairwise_map.mp (Text.pairwise_map_sortByKey hpaths)
    refine List.pairwise_filterMap.mpr (hsorted.imp ?_)
    intro f g hlt d hd e he
    obtain ⟨_, _, -, -, -, rfl⟩ := clashWith_eq_some.mp hd
    obtain ⟨_, _, -, -, -, rfl⟩ := clashWith_eq_some.mp he
    exact .inr ⟨rfl, hlt⟩
  · simp only [mem_disputes, disputed_concat_ofFiles (exists_ofContributions_iff.mp ⟨t, h⟩),
      contested_withFiles_iff hrecorded plugins hpaths, List.mem_filterMap,
      Text.mem_sortByKey]
    constructor
    · rintro ⟨topic, key, ⟨rfl, f, hf, rfl, e, he⟩, rfl⟩
      rw [← clashWith_eq_disputeOver hrecorded hplugins hpaths hf he]
      exact ⟨f, hf, he⟩
    · rintro ⟨f, hf, hd⟩
      exact ⟨.content, f.path, ⟨rfl, f, hf, rfl, d, hd⟩,
        clashWith_eq_disputeOver hrecorded hplugins hpaths hf hd⟩

theorem addFiles_eq_error (h : t.origins.keys = t.files.keys) (hpaths : (fs.map File.path).Nodup)
    {e : Failure} : t.addFiles fs origin plugins = .error e ↔
      ∃ f, e = .fault f ∧
        raiseFirst (((Text.sortByKey File.path fs).filterMap
          (t.clashWith origin plugins)).map Dispute.fault) = .error f := by
  obtain ⟨x, hx⟩ := exists_foldlM_add h origin plugins fs
  have hsorted : ((Text.sortByKey File.path fs).map File.path).Nodup :=
    ((Text.perm_sortByKey fs).map File.path).nodup_iff.mpr hpaths
  unfold addFiles
  simp only [bind_eq_error, hx, reduceCtorEq, false_or, Except.ok.injEq, exists_eq_left',
    mapError_eq_error, pure_ne_error, and_false, exists_false, or_false,
    (Extension.meets_foldlM hsorted hx).collisions]
  constructor
  · rintro ⟨f, hf, rfl⟩
    exact ⟨f, rfl, hf⟩
  · rintro ⟨f, rfl, hf⟩
    exact ⟨f, hf, rfl⟩

theorem pairwise_paths_ofContributions (h : ofContributions cs docs = .ok t) :
    t.files.keys.Pairwise (· < ·) := by
  rw [(keys_ofContributions h).1]
  exact Text.pairwise_sortedDistinct _

end Agreement

/-- Files are added to a tree exactly where they could have been merged as one more contribution,
with the same files and origins; all else in the tree stays. Where no path is added twice, as with
the root files, both fail with the same fault. -/
theorem addFiles_agrees {cs : List Contribution} {docs : Bool} {t : ProjectTree}
    {plugins : Table String} (h : ofContributions cs docs = .ok t)
    (hplugins : AssignsPlugins plugins cs) (fs : List File) (origin : String) :
    let more := cs ++ [.ofFiles origin fs]
    ((∃ t', t.addFiles fs origin plugins = .ok t') ↔ ∃ m, ofContributions more docs = .ok m) ∧
    (∀ t', t.addFiles fs origin plugins = .ok t' →
      t' = { t with files := t'.files, origins := t'.origins } ∧
        ∀ m, ofContributions more docs = .ok m → t'.files = m.files ∧ t'.origins = m.origins) ∧
    ((fs.map File.path).Nodup → ∀ e, t.addFiles fs origin plugins = .error e ↔
      ∃ f, e = .fault f ∧ ofContributions more docs = .error f) ∧
    ∀ s b r, ((RootFiles.files t s b r).map File.path).Nodup := by
  intro more
  have hrecorded := recorded_ofContributions h
  have hfree := exists_ofContributions_iff.mp ⟨t, h⟩
  refine ⟨?_, fun t' ht' => ⟨eq_of_addFiles ht', fun m hm => ?_⟩, fun hpaths e => ?_,
    RootFiles.nodup_paths t⟩
  · rw [exists_addFiles_iff hrecorded, exists_ofContributions_iff]
    simp only [more, disputed_concat_ofFiles hfree, not_and]
    constructor
    · rintro hadded _ path rfl
      exact hadded path
    · exact fun hmerged path => hmerged .content path rfl
  · obtain ⟨hadded, hsorted⟩ := recorded_addFiles ht' hrecorded
    have hmerged := recorded_ofContributions hm
    rw [placement_concat_ofFiles] at hmerged
    exact hadded.unique hmerged hsorted (pairwise_paths_ofContributions hm)
  · rw [addFiles_eq_error hrecorded.paths_eq hpaths]
    simp only [more, ofContributions_eq_error, disputes_concat_ofFiles h hplugins hpaths,
      raiseFirst_eq_error]

/-- The node that adds the files has put one of them there before, through a plugin of another
name; a second file comes from elsewhere, a third one is new. -/
theorem addFiles_agrees_ownNode :
    let page : File := ⟨"page.ts", "page", none⟩
    let note : File := ⟨"note.md", "# Note\n\n", none⟩
    let cs : List Contribution := [⟨"shop", "s", { files := [page] }⟩,
      ⟨"desk", "d", { docs := [⟨"note.md", "Note", ""⟩] }⟩]
    let plugins : Table String := [("shop", "s"), ("desk", "d")]
    let t : ProjectTree := {
      files := [("note.md", "# Note\n\n"), ("page.ts", "page")]
      origins := [("note.md", ["desk"]), ("page.ts", ["shop"])]
      docs := [⟨"note.md", "Note", ["desk"]⟩] }
    let fresh : File := ⟨"new.ts", "", none⟩
    let changed : File := ⟨"page.ts", "other", none⟩
    let fault : Fault := (Dispute.ofEntries .content "page.ts"
      [⟨"shop", "s", "page"⟩, ⟨"shop", "shop", "other"⟩]).fault
    ofContributions cs true = .ok t ∧ AssignsPlugins plugins cs ∧
      ([note, changed].map File.path).Nodup ∧
      fault.kind = .collision "page.ts" ["s", "shop"] ["shop"] ∧
      (∃ m, ofContributions (cs ++ [.ofFiles "shop" [page, note, fresh]]) true = .ok m) ∧
      t.addFiles [note, changed] "shop" plugins = .error (.fault fault) ∧
      ofContributions (cs ++ [.ofFiles "shop" [note, changed]]) true = .error fault := by
  intro page note cs plugins t fresh changed fault
  have h : ofContributions cs true = .ok t := by decide +kernel
  have hplugins : AssignsPlugins plugins cs := by
    intro node plugin
    simp only [plugins, cs, Table.get?_cons, Table.get?_nil, List.mem_cons, List.not_mem_nil,
      or_false, exists_eq_or_imp, exists_eq_left]
    split
    · next hshop =>
      subst hshop
      simp
    · grind
  have hadded : (t.addFiles [page, note, fresh] "shop" plugins).toOption.isSome = true := by
    decide +kernel
  obtain ⟨t', ht'⟩ := Option.isSome_iff_exists.mp hadded
  have hrefused : t.addFiles [note, changed] "shop" plugins = .error (.fault fault) := by
    decide +kernel
  have hpaths : ([note, changed].map File.path).Nodup := by decide
  obtain ⟨_, hsame, hmerged⟩ :=
    ((addFiles_agrees h hplugins [note, changed] "shop").2.2.1 hpaths _).mp hrefused
  obtain rfl := Failure.fault.inj hsame
  exact ⟨h, hplugins, hpaths, rfl,
    (addFiles_agrees h hplugins _ "shop").1.mp ⟨t', toOption_eq_some.mp ht'⟩, hrefused, hmerged⟩

end ProjectTree
end ProjectComposer
