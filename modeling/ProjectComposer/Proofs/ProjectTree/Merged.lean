import ProjectComposer.Proofs.ProjectTree.Placement

/-!
What a merged tree holds. Main statement: a tree of contributions has one entry for each key under
which some node supplies an artifact, in strictly increasing order, and each entry is what all the
artifacts under its key come to: contents, commands and versions that they share, flags that one or
all of them set, the least of their titles, and the nodes that supply them.
-/
namespace ProjectComposer
set_option autoImplicit false

/-! ## Entries by key -/

/-- A node supplies an artifact. -/
def Supplies {α : Type} (cs : List Contribution) (artifacts : Output → List α) (node : String)
    (a : α) : Prop :=
  ∃ c ∈ cs, c.nodeId = node ∧ a ∈ artifacts c.output

/-- The artifacts under a key, whichever node supplies them. -/
def SuppliedUnder {α : Type} (cs : List Contribution) (artifacts : Output → List α)
    (key : α → String) (k : String) (a : α) : Prop :=
  key a = k ∧ ∃ node, Supplies cs artifacts node a

/-- The entries stand for the keys of the artifacts, one for each in strictly increasing order, and
each lists the nodes that supply something under its key. -/
structure MergedByKey {α β : Type} (cs : List Contribution) (artifacts : Output → List α)
    (key : α → String) (entries : List β) (name : β → String) (origins : β → List String) :
    Prop where
  pairwise_names : (entries.map name).Pairwise (· < ·)
  mem_names_iff : ∀ k, k ∈ entries.map name ↔ ∃ a, SuppliedUnder cs artifacts key k a
  pairwise_origins : ∀ b ∈ entries, (origins b).Pairwise (· < ·)
  mem_origins_iff : ∀ b ∈ entries, ∀ node,
    node ∈ origins b ↔ ∃ a, key a = name b ∧ Supplies cs artifacts node a

/-! ## Artifacts under one key -/

/-- A text lists the descriptions that show something: trimmed, once each, in order. -/
def DescribesAll (given : String → Prop) (text : String) : Prop :=
  ∃ shown : List String, shown.Pairwise (· < ·) ∧
    (∀ s, s ∈ shown ↔ s ≠ "" ∧ ∃ d, given d ∧ Text.strip d = s) ∧
    text = Text.joinTexts "; " shown

structure MergedEnvVar.Merges (v : MergedEnvVar) (supplied : EnvVar → Prop) : Prop where
  required_iff : v.required = true ↔ ∃ a, supplied a ∧ a.required = true
  secret_iff : v.secret = true ↔ ∃ a, supplied a ∧ a.secret = true
  /-- So there is one default at most that is not blank. -/
  default_iff : ∀ s, v.default = some s ↔
    ∃ a, supplied a ∧ a.default = some s ∧ Text.isBlankText s = false
  describes : DescribesAll (fun d => ∃ a, supplied a ∧ a.description = d) v.description

structure MergedScript.Merges (s : MergedScript) (supplied : Script → Prop) : Prop where
  command_eq : ∀ a, supplied a → a.command = s.command
  /-- No description stands for an empty one. -/
  describes : DescribesAll (fun d => ∃ a, supplied a ∧ a.description = some d)
    (s.description.getD "")
  description_ne : s.description ≠ some ""

structure MergedDependency.Merges (d : MergedDependency) (supplied : Dependency → Prop) :
    Prop where
  version_eq : ∀ a, supplied a → Text.strip a.version = d.version
  dev_iff : d.dev = true ↔ ∀ a, supplied a → a.dev = true

structure DocEntry.Merges (e : DocEntry) (supplied : Doc → Prop) : Prop where
  title_mem : ∃ a, supplied a ∧ a.title = e.title
  title_le : ∀ a, supplied a → e.title ≤ a.title

/-! ## Trees -/

/-- A tree holds what contributions come to, without their documents where these are left out. -/
structure ProjectTree.Merges (t : ProjectTree) (cs : List Contribution) (docs : Bool) : Prop where
  pairwise_paths : t.files.keys.Pairwise (· < ·)
  mem_paths_iff : ∀ path, path ∈ t.files.keys ↔
    (∃ f, SuppliedUnder cs Output.files File.path path f) ∨
      docs = true ∧ ∃ d, SuppliedUnder cs Output.docs Doc.path path d
  /-- At each path there is the one content that was put there, with the nodes that put it. -/
  recorded : (Placement.ofContributions cs docs).Recorded t.files t.origins
  envVars : MergedByKey cs Output.envVars EnvVar.key t.envVars MergedEnvVar.key
    MergedEnvVar.origins
  envVar : ∀ v ∈ t.envVars, v.Merges (SuppliedUnder cs Output.envVars EnvVar.key v.key)
  scripts : MergedByKey cs Output.scripts Script.name t.scripts MergedScript.name
    MergedScript.origins
  script : ∀ s ∈ t.scripts, s.Merges (SuppliedUnder cs Output.scripts Script.name s.name)
  dependencies : MergedByKey cs Output.dependencies Dependency.name t.dependencies
    MergedDependency.name MergedDependency.origins
  dependency : ∀ d ∈ t.dependencies,
    d.Merges (SuppliedUnder cs Output.dependencies Dependency.name d.name)
  pairwise_docs : (t.docs.map DocEntry.path).Pairwise (· < ·)
  mem_docs_iff : ∀ path, path ∈ t.docs.map DocEntry.path ↔
    docs = true ∧ ∃ d, SuppliedUnder cs Output.docs Doc.path path d
  doc : ∀ e ∈ t.docs, e.Merges (SuppliedUnder cs Output.docs Doc.path e.path) ∧
    t.origins.get? e.path = some e.origins

namespace Merge

/-! ## Groups -/

section Groups
variable {α β : Type} {cs : List Contribution} {artifacts : Output → List α} {key : α → String}
  {merge : String → Offered α → Except Fault β} {name : β → String} {origins : β → List String}

theorem mem_artifacts {a : α} :
    a ∈ (offered cs artifacts).map (fun x => x.2) ↔ ∃ node, Supplies cs artifacts node a := by
  simp only [List.mem_map, mem_offered, Supplies]
  constructor
  · rintro ⟨⟨c, a⟩, ⟨hc, ha⟩, rfl⟩
    exact ⟨c.nodeId, c, hc, rfl, ha⟩
  · rintro ⟨node, c, hc, -, ha⟩
    exact ⟨(c, a), ⟨hc, ha⟩, rfl⟩

theorem mem_keys_offered {k : String} : k ∈ (offered cs artifacts).map (fun x => key x.2) ↔
    ∃ a, SuppliedUnder cs artifacts key k a := by
  have hkeys : (offered cs artifacts).map (fun x => key x.2) =
      ((offered cs artifacts).map fun x => x.2).map key := by
    rw [List.map_map]
    rfl
  rw [hkeys, List.mem_map]
  simp only [mem_artifacts, SuppliedUnder, and_comm]

/-- The artifacts that are merged under a key. -/
def group (cs : List Contribution) (artifacts : Output → List α) (key : α → String) (k : String) :
    Offered α :=
  (offered cs artifacts).filter fun a => key a.2 = k

theorem mem_group {k : String} {c : Contribution} {a : α} :
    (c, a) ∈ group cs artifacts key k ↔ c ∈ cs ∧ a ∈ artifacts c.output ∧ key a = k := by
  simp only [group, List.mem_filter, mem_offered, decide_eq_true_eq, and_assoc]

theorem suppliedUnder_iff {k : String} (a : α) :
    SuppliedUnder cs artifacts key k a ↔ ∃ c, (c, a) ∈ group cs artifacts key k := by
  simp only [mem_group, SuppliedUnder, Supplies]
  constructor
  · rintro ⟨hk, node, c, hc, -, ha⟩
    exact ⟨c, hc, ha, hk⟩
  · rintro ⟨c, hc, ha, hk⟩
    exact ⟨hk, c.nodeId, c, hc, rfl, ha⟩

/-- What is merged under a key has it as its name and the nodes of the group as its origins. -/
def IsKeyed (merge : String → Offered α → Except Fault β) (name : β → String)
    (origins : β → List String) : Prop :=
  ∀ k as b, merge k as = .ok b →
    name b = k ∧ origins b = Text.sortedDistinct (as.map fun a => a.1.nodeId)

/-- A merged entry comes from the group of its own name. -/
theorem IsKeyed.merge_group (hkeyed : IsKeyed merge name origins) {b : β}
    (hb : b ∈ merged (byKey (fun a => key a.2) merge (offered cs artifacts))) :
    merge (name b) (group cs artifacts key (name b)) = .ok b := by
  obtain ⟨k, -, hmerge⟩ := mem_merged_byKey.mp hb
  obtain ⟨rfl, -⟩ := hkeyed _ _ _ hmerge
  exact hmerge

theorem IsKeyed.mergedByKey (hkeyed : IsKeyed merge name origins)
    (h : faults (byKey (fun a => key a.2) merge (offered cs artifacts)) = []) :
    MergedByKey cs artifacts key
      (merged (byKey (fun a => key a.2) merge (offered cs artifacts))) name origins := by
  have hnames := map_merged_byKey (fun k as b hb => (hkeyed k as b hb).1) h
  have horigins {b : β}
      (hb : b ∈ merged (byKey (fun a => key a.2) merge (offered cs artifacts))) :
      origins b = Text.sortedDistinct
        ((group cs artifacts key (name b)).map fun a => a.1.nodeId) :=
    (hkeyed _ _ b (hkeyed.merge_group hb)).2
  refine ⟨?_, ?_, ?_, ?_⟩
  · rw [hnames]
    exact Text.pairwise_sortedDistinct _
  · intro k
    rw [hnames, Text.mem_sortedDistinct, mem_keys_offered]
  · intro b hb
    rw [horigins hb]
    exact Text.pairwise_sortedDistinct _
  · intro b hb node
    rw [horigins hb, Text.mem_sortedDistinct]
    simp only [List.mem_map, Prod.exists, mem_group, Supplies]
    constructor
    · rintro ⟨c, a, ⟨hc, ha, hk⟩, rfl⟩
      exact ⟨a, hk, c, hc, rfl, ha⟩
    · rintro ⟨a, hk, c, hc, rfl, ha⟩
      exact ⟨c, a, ⟨hc, ha, hk⟩, rfl⟩

end Groups

/-! ## Agreed values and descriptions -/

theorem eq_some_of_agreed {disagreement : List Entry → Fault} {es : List Entry} {o : Option String}
    (h : agreed disagreement es = .ok o) (s : String) : o = some s ↔ ∃ e ∈ es, e.value = s := by
  rcases agreed_eq_ok.mp h with ⟨rfl, rfl⟩ | ⟨v, rfl, hne, hall⟩
  · simp
  · obtain ⟨e, he⟩ := List.exists_mem_of_ne_nil es hne
    rw [Option.some.injEq]
    constructor
    · rintro rfl
      exact ⟨e, he, hall e he⟩
    · rintro ⟨e', he', rfl⟩
      exact (hall e' he').symm

/-- The value of an entry is the agreed one, whatever stands in for none. -/
theorem value_eq_of_agreed {disagreement : List Entry → Fault} {es : List Entry}
    {o : Option String} (h : agreed disagreement es = .ok o) {e : Entry} (he : e ∈ es) :
    e.value = o.getD "" := by
  rw [(eq_some_of_agreed h e.value).mpr ⟨e, he, rfl⟩]
  rfl

theorem describesAll_descriptions {ds : List String} {given : String → Prop}
    (h : ∀ d, d ∈ ds ↔ given d) : DescribesAll given (descriptions ds) := by
  refine ⟨_, Text.pairwise_sortedDistinct _, fun s => ?_, rfl⟩
  rw [Text.mem_sortedDistinct, List.mem_filter, List.mem_map, decide_eq_true_eq, and_comm]
  simp only [h]

/-- What holds of some or of all artifacts of a group, read off the group. -/
theorem exists_supplied {α : Type} {as : Offered α} {supplied : α → Prop}
    (has : ∀ a, supplied a ↔ ∃ c, (c, a) ∈ as) (q : α → Prop) :
    (∃ a, supplied a ∧ q a) ↔ ∃ x ∈ as, q x.2 := by
  simp only [has]
  constructor
  · rintro ⟨a, ⟨c, hc⟩, ha⟩
    exact ⟨(c, a), hc, ha⟩
  · rintro ⟨x, hx, ha⟩
    exact ⟨x.2, ⟨x.1, hx⟩, ha⟩

theorem nodes_map_entry {α : Type} (value : α → String) (as : Offered α) :
    nodes (as.map (entry value)) = Text.sortedDistinct (as.map fun a => a.1.nodeId) := by
  rw [nodes, List.map_map]
  rfl

/-! ## Variables -/

section EnvVars
variable {key : String} {vs : Offered EnvVar} {v : MergedEnvVar}

theorem mergeEnvVar_eq_ok : mergeEnvVar key vs = .ok v ↔
    agreed (conflict "env var default" key)
      ((vs.filterMap fun a => (shownDefault a.2).map fun s => (a.1, s)).map (entry id)) =
        .ok v.default ∧
    v = {
      key := key
      description := descriptions (vs.map (·.2.description))
      required := vs.any (·.2.required)
      default := v.default
      secret := vs.any (·.2.secret)
      origins := nodes (vs.map (entry EnvVar.key)) } := by
  unfold mergeEnvVar
  simp only [bind_eq_ok, pure_eq_ok]
  constructor
  · rintro ⟨default, hdefault, rfl⟩
    exact ⟨hdefault, rfl⟩
  · rintro ⟨hdefault, hv⟩
    exact ⟨v.default, hdefault, hv.symm⟩

theorem isKeyed_mergeEnvVar :
    IsKeyed mergeEnvVar MergedEnvVar.key MergedEnvVar.origins := by
  intro key vs v h
  rw [(mergeEnvVar_eq_ok.mp h).2]
  exact ⟨rfl, nodes_map_entry EnvVar.key vs⟩

theorem shownDefault_eq_some {a : EnvVar} {s : String} :
    shownDefault a = some s ↔ a.default = some s ∧ Text.isBlankText s = false := by
  rw [shownDefault, Option.filter_eq_some_iff]
  simp

theorem mem_shown {s : String} :
    (∃ e ∈ (vs.filterMap fun a => (shownDefault a.2).map fun s => (a.1, s)).map (entry id),
      e.value = s) ↔ ∃ x ∈ vs, shownDefault x.2 = some s := by
  constructor
  · rintro ⟨e, he, rfl⟩
    obtain ⟨y, hy, rfl⟩ := List.mem_map.mp he
    obtain ⟨x, hx, hxy⟩ := List.mem_filterMap.mp hy
    obtain ⟨s, hs, rfl⟩ := Option.map_eq_some_iff.mp hxy
    exact ⟨x, hx, hs⟩
  · rintro ⟨x, hx, hs⟩
    have hy : (x.1, s) ∈ vs.filterMap fun a => (shownDefault a.2).map fun s => (a.1, s) :=
      List.mem_filterMap.mpr ⟨x, hx, by rw [hs]; rfl⟩
    exact ⟨_, List.mem_map_of_mem hy, rfl⟩

theorem merges_of_mergeEnvVar (h : mergeEnvVar key vs = .ok v) {supplied : EnvVar → Prop}
    (hvs : ∀ a, supplied a ↔ ∃ c, (c, a) ∈ vs) : v.Merges supplied := by
  obtain ⟨hdefault, hv⟩ := mergeEnvVar_eq_ok.mp h
  refine ⟨?_, ?_, fun s => ?_, ?_⟩
  · rw [hv, List.any_eq_true, exists_supplied hvs]
  · rw [hv, List.any_eq_true, exists_supplied hvs]
  · rw [eq_some_of_agreed hdefault, mem_shown, exists_supplied hvs]
    simp only [shownDefault_eq_some]
  · rw [hv]
    refine describesAll_descriptions fun d => ?_
    rw [exists_supplied hvs, List.mem_map]

end EnvVars

/-! ## Scripts and dependencies -/

section Scripts
variable {name : String} {ss : Offered Script} {s : MergedScript}

theorem mergeScript_eq_ok : mergeScript name ss = .ok s ↔
    ∃ command, agreed (conflict "script" name) (ss.map (entry Script.command)) = .ok command ∧
      s = {
        name := name
        command := command.getD ""
        description :=
          if descriptions (ss.filterMap (·.2.description)) = "" then none
          else some (descriptions (ss.filterMap (·.2.description)))
        origins := nodes (ss.map (entry Script.command)) } := by
  unfold mergeScript
  simp only [bind_eq_ok, pure_eq_ok, eq_comm (a := s)]

theorem isKeyed_mergeScript :
    IsKeyed mergeScript MergedScript.name MergedScript.origins := by
  intro name ss s h
  obtain ⟨command, -, rfl⟩ := mergeScript_eq_ok.mp h
  exact ⟨rfl, nodes_map_entry Script.command ss⟩

theorem merges_of_mergeScript (h : mergeScript name ss = .ok s) {supplied : Script → Prop}
    (hss : ∀ a, supplied a ↔ ∃ c, (c, a) ∈ ss) : s.Merges supplied := by
  obtain ⟨command, hcommand, rfl⟩ := mergeScript_eq_ok.mp h
  refine ⟨fun a ha => ?_, ?_, ?_⟩
  · obtain ⟨c, hc⟩ := (hss a).mp ha
    exact value_eq_of_agreed hcommand (List.mem_map_of_mem (f := entry Script.command) hc)
  · have hshown : DescribesAll (fun d => ∃ a, supplied a ∧ a.description = some d)
        (descriptions (ss.filterMap (·.2.description))) := by
      refine describesAll_descriptions fun d => ?_
      rw [exists_supplied hss, List.mem_filterMap]
    dsimp only
    split
    · next hempty => rwa [hempty] at hshown
    · exact hshown
  · dsimp only
    split
    · exact Option.some_ne_none "" ∘ Eq.symm
    · next hne => exact fun h => hne (Option.some.inj h)

end Scripts

section Dependencies
variable {name : String} {ds : Offered Dependency} {d : MergedDependency}

theorem mergeDependency_eq_ok : mergeDependency name ds = .ok d ↔
    ∃ version, agreed (conflict "dependency version" name) (ds.map (entry trimmedVersion)) =
        .ok version ∧
      d = ⟨name, version.getD "", ds.all (·.2.dev), nodes (ds.map (entry trimmedVersion))⟩ := by
  unfold mergeDependency
  simp only [bind_eq_ok, pure_eq_ok, eq_comm (a := d)]

theorem isKeyed_mergeDependency :
    IsKeyed mergeDependency MergedDependency.name MergedDependency.origins := by
  intro name ds d h
  obtain ⟨version, -, rfl⟩ := mergeDependency_eq_ok.mp h
  exact ⟨rfl, nodes_map_entry trimmedVersion ds⟩

theorem merges_of_mergeDependency (h : mergeDependency name ds = .ok d)
    {supplied : Dependency → Prop} (hds : ∀ a, supplied a ↔ ∃ c, (c, a) ∈ ds) :
    d.Merges supplied := by
  obtain ⟨version, hversion, rfl⟩ := mergeDependency_eq_ok.mp h
  refine ⟨fun a ha => ?_, ?_⟩
  · obtain ⟨c, hc⟩ := (hds a).mp ha
    exact value_eq_of_agreed hversion (List.mem_map_of_mem (f := entry trimmedVersion) hc)
  · rw [List.all_eq_true]
    constructor
    · intro hall a ha
      obtain ⟨c, hc⟩ := (hds a).mp ha
      exact hall _ hc
    · intro hall x hx
      exact hall x.2 ((hds x.2).mpr ⟨x.1, hx⟩)

end Dependencies

/-! ## Documents -/

section Documents
variable {cs : List Contribution} {origins : Table (List String)}

theorem map_path_docIndex : (docIndex cs origins).map DocEntry.path =
    Text.sortedDistinct ((offered cs Output.docs).map fun a => a.2.path) := by
  simp [docIndex, Function.comp_def]

theorem merges_of_mem_docIndex {e : DocEntry} (he : e ∈ docIndex cs origins) :
    e.Merges (SuppliedUnder cs Output.docs Doc.path e.path) ∧
      e.origins = (origins.get? e.path).getD [] := by
  obtain ⟨path, hpath, rfl⟩ := List.mem_map.mp he
  refine ⟨?_, rfl⟩
  have htitles (s : String) :
      s ∈ ((((offered cs Output.docs).map fun a => a.2).filter fun d => d.path = path).map
        Doc.title) ↔ ∃ d, SuppliedUnder cs Output.docs Doc.path path d ∧ d.title = s := by
    simp only [List.mem_map (b := s), List.mem_filter, mem_artifacts, decide_eq_true_eq,
      SuppliedUnder, and_comm]
  obtain ⟨d, hd, hd'⟩ := List.mem_map.mp (Text.mem_sortedDistinct.mp hpath)
  have hne := List.ne_nil_of_mem ((htitles d.title).mpr ⟨d, ⟨hd', mem_artifacts.mp hd⟩, rfl⟩)
  obtain ⟨hmem, hle⟩ := Text.headD_sortedDistinct hne ""
  exact ⟨(htitles _).mp hmem, fun a ha => hle _ ((htitles _).mpr ⟨a, ha, rfl⟩)⟩

end Documents
end Merge

/-! ## Merged trees -/

namespace ProjectTree
open Merge

variable {cs : List Contribution} {docs : Bool} {t : ProjectTree}

theorem mem_paths_ofContributions (h : ofContributions cs docs = .ok t) {path : String} :
    path ∈ t.files.keys ↔ (∃ f, SuppliedUnder cs Output.files File.path path f) ∨
      docs = true ∧ ∃ d, SuppliedUnder cs Output.docs Doc.path path d := by
  rw [(recorded_ofContributions h).mem_paths_iff]
  constructor
  · rintro ⟨node, content, c, hc, hnode, hputs⟩
    cases hputs with
    | file hf => exact .inl ⟨_, rfl, node, c, hc, hnode, hf⟩
    | doc hdocs hd => exact .inr ⟨hdocs, _, rfl, node, c, hc, hnode, hd⟩
  · rintro (⟨f, rfl, node, c, hc, hnode, hf⟩ | ⟨hdocs, d, rfl, node, c, hc, hnode, hd⟩)
    · exact ⟨node, _, c, hc, hnode, .file hf⟩
    · exact ⟨node, _, c, hc, hnode, .doc hdocs hd⟩

theorem docs_ofContributions (h : ofContributions cs docs = .ok t) :
    t.docs = if docs then docIndex cs t.origins else [] := by
  obtain ⟨-, rfl⟩ := ofContributions_eq_ok.mp h
  rfl

theorem map_path_docs (h : ofContributions cs docs = .ok t) : t.docs.map DocEntry.path =
    if docs then Text.sortedDistinct ((offered cs Output.docs).map fun a => a.2.path) else [] := by
  rw [docs_ofContributions h]
  split
  · exact map_path_docIndex
  · rfl

/-- Every document of the index is a file, so it has the origins of one. -/
theorem merges_of_mem_docs (h : ofContributions cs docs = .ok t) {e : DocEntry} (he : e ∈ t.docs) :
    e.Merges (SuppliedUnder cs Output.docs Doc.path e.path) ∧
      t.origins.get? e.path = some e.origins := by
  rw [docs_ofContributions h] at he
  split at he
  · next hdocs =>
    obtain ⟨hmerges, horigins⟩ := merges_of_mem_docIndex he
    -- The document was put at its path as a file, so this path has origins.
    obtain ⟨d, hd, -⟩ := hmerges.title_mem
    have hpath : e.path ∈ t.origins.keys := by
      rw [(keys_ofContributions h).2, mem_paths_ofContributions h]
      exact .inr ⟨hdocs, d, hd⟩
    obtain ⟨nodes, hnodes⟩ := Table.mem_keys_iff_get?.mp hpath
    rw [hnodes, Option.getD_some] at horigins
    exact ⟨hmerges, horigins ▸ hnodes⟩
  · cases he

/-- A tree of contributions holds what they come to, and nothing is lost, repeated or made up. -/
theorem ofContributions_merges (h : ofContributions cs docs = .ok t) : t.Merges cs docs := by
  obtain ⟨⟨-, henvVars, hscripts, hdependencies⟩, ht⟩ := ofContributions_eq_ok.mp h
  have hfiles := (keys_ofContributions h).1
  have hdocs := map_path_docs h
  constructor
  case pairwise_paths =>
    rw [hfiles]
    exact Text.pairwise_sortedDistinct _
  case mem_paths_iff => exact fun path => mem_paths_ofContributions h
  case recorded => exact recorded_ofContributions h
  case envVars =>
    rw [ht]
    exact isKeyed_mergeEnvVar.mergedByKey henvVars
  case envVar =>
    rw [ht]
    intro v hv
    exact merges_of_mergeEnvVar (isKeyed_mergeEnvVar.merge_group hv) suppliedUnder_iff
  case scripts =>
    rw [ht]
    exact isKeyed_mergeScript.mergedByKey hscripts
  case script =>
    rw [ht]
    intro s hs
    exact merges_of_mergeScript (isKeyed_mergeScript.merge_group hs) suppliedUnder_iff
  case dependencies =>
    rw [ht]
    exact isKeyed_mergeDependency.mergedByKey hdependencies
  case dependency =>
    rw [ht]
    intro d hd
    exact merges_of_mergeDependency (isKeyed_mergeDependency.merge_group hd) suppliedUnder_iff
  case pairwise_docs =>
    rw [hdocs]
    split
    · exact Text.pairwise_sortedDistinct _
    · exact List.Pairwise.nil
  case mem_docs_iff =>
    intro path
    rw [hdocs]
    split
    · next hon => rw [Text.mem_sortedDistinct, mem_keys_offered, and_iff_right hon]
    · next hoff => simp [hoff]
  case doc => exact fun e he => merges_of_mem_docs h he

/-- Two nodes share a page, a variable and a dependency; one of them repeats a description. -/
theorem ofContributions_merges_shared :
    let shop : Output := {
      files := [⟨"b.md", "# Guide\n\ntext", none⟩, ⟨"a.ts", "run", none⟩]
      envVars := [⟨"KEY", " the key ", false, some " ", true⟩,
        ⟨"KEY", "a secret", false, none, false⟩]
      dependencies := [⟨"zod", " 3.0.0 ", true⟩] }
    let desk : Output := {
      docs := [⟨"b.md", "Guide", "text"⟩]
      envVars := [⟨"KEY", "the key", true, some "none", false⟩]
      scripts := [⟨"dev", "run dev", some " "⟩]
      dependencies := [⟨"zod", "3.0.0", false⟩, ⟨"axios", "1.2.0", true⟩] }
    let cs : List Contribution := [⟨"shop", "s", shop⟩, ⟨"desk", "d", desk⟩]
    let t : ProjectTree := {
      files := [("a.ts", "run"), ("b.md", "# Guide\n\ntext")]
      origins := [("a.ts", ["shop"]), ("b.md", ["desk", "shop"])]
      envVars := [⟨"KEY", "a secret; the key", true, some "none", true, ["desk", "shop"]⟩]
      scripts := [⟨"dev", "run dev", none, ["desk"]⟩]
      docs := [⟨"b.md", "Guide", ["desk", "shop"]⟩]
      dependencies := [⟨"axios", "1.2.0", true, ["desk"]⟩,
        ⟨"zod", "3.0.0", false, ["desk", "shop"]⟩] }
    ofContributions cs true = .ok t ∧ t.Merges cs true := by
  intro shop desk cs t
  have h : ofContributions cs true = .ok t := by decide +kernel
  exact ⟨h, ofContributions_merges h⟩

end ProjectTree
end ProjectComposer
