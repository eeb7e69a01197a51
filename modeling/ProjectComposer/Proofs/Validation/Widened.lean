import ProjectComposer.Proofs.Execution.Visibility
import ProjectComposer.Proofs.Validation.DependencyGraph

/-!
Blueprints with more nodes. One blueprint widens another if it has its nodes and its edges, in
whatever order, and besides them only nodes that no edge touches. Where plugins require nothing, the
arcs of both graphs are the edges, so the smaller blueprint is accepted if the wider one is, and the
nodes of the smaller one keep their configs and their layers.
-/
namespace ProjectComposer
set_option autoImplicit false

/-! ## Nodes by id -/

/-- Items that keep the key of what they are made from come with a part of the keys. -/
theorem map_filterMap_sublist {α β : Type} {make : α → Option β} {key : β → String}
    {name : α → String} (h : ∀ a b, make a = some b → key b = name a) (l : List α) :
    ((l.filterMap make).map key).Sublist (l.map name) := by
  induction l with
  | nil => exact .slnil
  | cons a l ih =>
    cases hmake : make a with
    | none =>
      rw [List.filterMap_cons_none hmake]
      exact ih.cons _
    | some b =>
      rw [List.filterMap_cons_some hmake, List.map_cons, List.map_cons, h a b hmake]
      exact ih.cons_cons _

theorem find?_id_eq_some {nodes : List Node} (h : (nodes.map (·.id)).Nodup) {id : String}
    {n : Node} : nodes.find? (fun m => m.id = id) = some n ↔ n ∈ nodes ∧ n.id = id := by
  constructor
  · intro hfind
    exact ⟨List.mem_of_find?_eq_some hfind, by simpa using List.find?_some hfind⟩
  · rintro ⟨hn, rfl⟩
    cases hfind : nodes.find? fun m => m.id = n.id with
    | none => simpa using List.find?_eq_none.mp hfind n hn
    | some m =>
      have hid : m.id = n.id := by simpa using List.find?_some hfind
      rw [List.inj_on_of_nodup_map h (List.mem_of_find?_eq_some hfind) hn hid]

/-! ## Configs that were read -/

/-- A node's own entry of the configs. -/
def Node.entry (r : Registry) (n : Node) : Option (String × Config) :=
  match n.readConfig r with
  | some (.ok c) => some (n.id, c)
  | _ => none

theorem Node.entry_eq_some {r : Registry} {n : Node} {e : String × Config} :
    n.entry r = some e ↔ n.id = e.1 ∧ n.readConfig r = some (.ok e.2) := by
  unfold entry
  split
  · next c hread => simp [hread, Prod.ext_iff]
  · next hread => simpa using fun _ => hread e.2

theorem Blueprint.configs_eq (b : Blueprint) (r : Registry) :
    b.configs r = .ofPairs (b.nodes.filterMap (Node.entry r)) :=
  rfl

/-! ## Registries that require nothing -/

/-- No plugin requires a node of some kind or the wiring of a port. -/
structure Registry.Undemanding (r : Registry) : Prop where
  requiredNeeds_eq : ∀ kind p, r.get? kind = some p → p.requiredNeeds = []
  required_eq : ∀ kind p, r.get? kind = some p → ∀ q ∈ p.inputPorts, q.required = false

namespace Blueprint
variable {b : Blueprint} {r : Registry}

theorem configIssues_eq_nil : b.configIssues r = [] ↔
    ∀ n ∈ b.nodes, ∀ p, r.get? n.kind = some p → ∃ c, p.schema.read n.config = .ok c := by
  unfold configIssues Node.readConfig
  rw [List.filterMap_eq_nil_iff]
  refine forall₂_congr fun n _ => ?_
  cases r.get? n.kind with
  | none => simp
  | some p =>
    cases hread : p.schema.read n.config with
    | ok c => simp [hread]
    | error is => simp [hread]

/-- Where ids are distinct, the config of a node is the one that was read for it. -/
theorem get?_configs (h : b.nodeIds.Nodup) {id : String} {c : Config} :
    (b.configs r).get? id = some c ↔
      ∃ n ∈ b.nodes, n.id = id ∧ n.readConfig r = some (.ok c) := by
  have hkeys : ((b.nodes.filterMap (Node.entry r)).map Prod.fst).Nodup :=
    (map_filterMap_sublist (fun _ _ he => (Node.entry_eq_some.mp he).1.symm) b.nodes).nodup h
  rw [configs_eq, Table.ofPairs_eq_self hkeys, Table.get?_eq_some_iff hkeys, List.mem_filterMap]
  simp only [Node.entry_eq_some]

/-- Where nothing is required, the structure is valid if ids and kinds are in order and every edge
is. -/
theorem findings_eq_nil_of_undemanding (hr : r.Undemanding) : b.findings r = [] ↔
    b.nodes ≠ [] ∧ (∀ n ∈ b.nodes, n.id ≠ "") ∧ b.nodeIds.Nodup ∧
      (∀ n ∈ b.nodes, ∃ p, r.get? n.kind = some p) ∧ ∀ e ∈ b.edges, e.findings r b.nodes = [] := by
  have hinputs : inputFindings r ((b.edges.filter fun e => e.isWired r b.nodes).map (·.target))
      b.nodes = [] := by
    refine inputFindings_eq_nil.mpr fun n _ p hp q hq hrequired => ?_
    rw [hr.required_eq _ _ hp q hq] at hrequired
    cases hrequired
  rw [findings_eq_nil, idFindings_eq_nil, kindFindings_eq_nil, List.flatMap_eq_nil_iff]
  simp [hinputs, nodeIds, and_assoc]

theorem arc_iff_of_undemanding (hr : r.Undemanding) {g : Graph} (h : b.graph r = .ok g) :
    g.Arc = b.Joins := by
  funext u v
  have hrequires : ¬b.Requires r v u := by
    rintro ⟨n, -, p, need, hneed, -, -, hp, -⟩
    rw [hr.requiredNeeds_eq _ _ hp] at hneed
    cases hneed
  rw [arc_iff h, eq_iff_iff, or_iff_left hrequires]

theorem exists_validated_iff (hr : r.Undemanding) : (∃ a, b.validated r = .ok a) ↔
    b.configIssues r = [] ∧ b.findings r = [] ∧ ¬∃ c, Graph.IsCycle b.Joins c := by
  constructor
  · rintro ⟨a, ha⟩
    obtain ⟨hconfigs, hgraph, hplan⟩ := validated_eq_ok.mp ha
    have hacyclic := (Graph.exists_plan_iff (wellFormed_graph hgraph)).mp ⟨_, hplan⟩
    rw [arc_iff_of_undemanding hr hgraph] at hacyclic
    exact ⟨(validateConfigs_eq_ok.mp hconfigs).1, (graph_eq_ok.mp hgraph).1, hacyclic⟩
  · rintro ⟨hconfigs, hfindings, hacyclic⟩
    have hmeets : ∀ n ∈ b.nodes, ∀ p, r.get? n.kind = some p → b.Meets p := by
      intro n _ p hp need hneed
      rw [hr.requiredNeeds_eq _ _ hp] at hneed
      cases hneed
    obtain ⟨g, hg⟩ := (exists_graph_iff hfindings).mpr hmeets
    rw [← arc_iff_of_undemanding hr hg] at hacyclic
    obtain ⟨p, hp⟩ := (Graph.exists_plan_iff (wellFormed_graph hg)).mpr hacyclic
    exact ⟨⟨_, g, p⟩, validated_eq_ok.mpr ⟨validateConfigs_eq_ok.mpr ⟨hconfigs, rfl⟩, hg, hp⟩⟩

/-! ## More nodes -/

/-- A blueprint with the nodes and the edges of another one, and with nodes added that no edge
touches. The order is its own. -/
structure Widens (b' b : Blueprint) (added : List Node) : Prop where
  id_eq : b'.id = b.id
  settings_eq : b'.settings = b.settings
  perm_nodes : b'.nodes.Perm (added ++ b.nodes)
  perm_edges : b'.edges.Perm b.edges
  untouched : ∀ n ∈ added, ∀ e ∈ b.edges, e.source.node ≠ n.id ∧ e.target.node ≠ n.id

namespace Widens
variable {b' : Blueprint} {added : List Node}

theorem symm (h : b'.Widens b []) : b.Widens b' [] :=
  ⟨h.id_eq.symm, h.settings_eq.symm, h.perm_nodes.symm, h.perm_edges.symm, by simp⟩

theorem resolvedSettings_eq (h : b'.Widens b added) :
    b'.resolvedSettings = b.resolvedSettings := by
  unfold resolvedSettings defaultName
  rw [h.settings_eq, h.id_eq]

theorem mem_nodes (h : b'.Widens b added) {n : Node} :
    n ∈ b'.nodes ↔ n ∈ added ∨ n ∈ b.nodes := by
  rw [h.perm_nodes.mem_iff, List.mem_append]

theorem mem_nodes_of_mem (h : b'.Widens b added) {n : Node} (hn : n ∈ b.nodes) : n ∈ b'.nodes :=
  h.mem_nodes.mpr (.inr hn)

theorem perm_nodeIds (h : b'.Widens b added) :
    b'.nodeIds.Perm (added.map (·.id) ++ b.nodeIds) := by
  have hperm := h.perm_nodes.map (·.id)
  rwa [List.map_append] at hperm

theorem nodup_append (h : b'.Widens b added) (hids : b'.nodeIds.Nodup) :
    (added.map (·.id) ++ b.nodeIds).Nodup :=
  h.perm_nodeIds.nodup_iff.mp hids

theorem nodup_nodeIds (h : b'.Widens b added) (hids : b'.nodeIds.Nodup) : b.nodeIds.Nodup :=
  (List.nodup_append.mp (h.nodup_append hids)).2.1

/-- An id of the smaller blueprint is that of no added node. -/
theorem not_mem_added (h : b'.Widens b added) (hids : b'.nodeIds.Nodup) {n : Node}
    (hn : n.id ∈ b.nodeIds) : n ∉ added := by
  intro hadded
  exact (List.nodup_append.mp (h.nodup_append hids)).2.2 _ (List.mem_map_of_mem hadded) _ hn rfl

theorem joins_eq (h : b'.Widens b added) : b'.Joins = b.Joins := by
  funext u v
  simp only [Joins, h.perm_edges.mem_iff]

/-- Looking up an id that is no added node's finds the same node. -/
theorem find?_eq (h : b'.Widens b added) (hids : b'.nodeIds.Nodup) {id : String}
    (hid : ∀ n ∈ added, id ≠ n.id) :
    b'.nodes.find? (fun n => n.id = id) = b.nodes.find? fun n => n.id = id := by
  apply Option.ext
  intro n
  rw [find?_id_eq_some hids, find?_id_eq_some (h.nodup_nodeIds hids), h.mem_nodes]
  refine and_congr_left fun hn => or_iff_right fun hadded => ?_
  exact hid n hadded hn.symm

theorem findings_edge_eq (h : b'.Widens b added) (hids : b'.nodeIds.Nodup) {e : Edge}
    (he : e ∈ b.edges) (r : Registry) : e.findings r b'.nodes = e.findings r b.nodes := by
  have hsource := h.find?_eq hids fun n hn => (h.untouched n hn e he).1
  have htarget := h.find?_eq hids fun n hn => (h.untouched n hn e he).2
  have hends : e.ends b'.nodes = e.ends b.nodes := by
    unfold Edge.ends
    rw [hsource, htarget]
  unfold Edge.findings
  rw [hends]

theorem findings_eq_nil (h : b'.Widens b added) (hr : r.Undemanding) (hne : b.nodes ≠ [])
    (h' : b'.findings r = []) : b.findings r = [] := by
  obtain ⟨-, hnames, hids, hkinds, hedges⟩ := (findings_eq_nil_of_undemanding hr).mp h'
  have hsub {n : Node} (hn : n ∈ b.nodes) := h.mem_nodes_of_mem hn
  refine (findings_eq_nil_of_undemanding hr).mpr ⟨hne, fun n hn => hnames n (hsub hn),
    h.nodup_nodeIds hids, fun n hn => hkinds n (hsub hn), fun e he => ?_⟩
  rw [← h.findings_edge_eq hids he]
  exact hedges e (h.perm_edges.mem_iff.mpr he)

/-- What is accepted with more nodes is accepted without them. -/
theorem exists_validated (h : b'.Widens b added) (hr : r.Undemanding) (hne : b.nodes ≠ [])
    (h' : ∃ a, b'.validated r = .ok a) : ∃ a, b.validated r = .ok a := by
  obtain ⟨hconfigs, hfindings, hacyclic⟩ := (exists_validated_iff hr).mp h'
  rw [h.joins_eq] at hacyclic
  refine (exists_validated_iff hr).mpr ⟨?_, h.findings_eq_nil hr hne hfindings, hacyclic⟩
  rw [configIssues_eq_nil] at hconfigs ⊢
  exact fun n hn => hconfigs n (h.mem_nodes_of_mem hn)

end Widens
end Blueprint

/-! ## Layers by arcs -/

namespace Graph

/-- Levels that are related one by one make layers that are. -/
theorem forall₂_layers {g g' : Graph} (hg : g.WellFormed) (hg' : g'.WellFormed)
    {R : List String → List String → Prop}
    (hlevel : ∀ n, R (level g.Arc g.nodes n) (level g'.Arc g'.nodes n))
    (hempty : ∀ n, level g.Arc g.nodes n = [] ↔ level g'.Arc g'.nodes n = []) :
    List.Forall₂ R g.layers g'.layers := by
  obtain ⟨k, hk, hne, hlast, -⟩ := exists_layers_eq hg
  obtain ⟨k', hk', hne', hlast', -⟩ := exists_layers_eq hg'
  have hsame : k = k' := by
    by_contra hdiffer
    rcases Nat.lt_or_gt_of_ne hdiffer with hlt | hlt
    · exact hne' k hlt ((hempty k).mp hlast)
    · exact hne k' hlt ((hempty k').mpr hlast')
  rw [hk, hk', hsame, List.forall₂_map_left_iff, List.forall₂_map_right_iff]
  exact List.forall₂_same.mpr fun n _ => hlevel n

end Graph

namespace Job.Valid
variable {j : Job}

theorem layers_eq (h : j.Valid) : j.accepted.plan.layers = j.accepted.graph.layers := by
  rw [((Graph.plan_eq_ok h.wellFormed).mp (Blueprint.validated_eq_ok.mp h).2.2).1]

/-- Where there are nodes, some of them have no producer. -/
theorem level_zero_ne_nil (h : j.Valid) :
    Graph.level j.accepted.graph.Arc j.accepted.graph.nodes 0 ≠ [] := by
  intro hnil
  obtain ⟨k, hlayers, hne, -⟩ := Graph.exists_layers_eq h.wellFormed
  have hk : k = 0 := by
    by_contra hpos
    exact hne 0 (Nat.pos_of_ne_zero hpos) hnil
  have hnodes := (Blueprint.findings_eq_nil.mp h.findings_eq).1
  have hperm := h.perm_order
  rw [Plan.order, h.layers_eq, hlayers, hk] at hperm
  exact hnodes (List.map_eq_nil_iff.mp (List.nil_perm.mp hperm))

/-- One node lies before another exactly if walks to it are shorter. -/
theorem before_iff_endsWithin (h : j.Valid) {u v : String} (hu : u ∈ j.blueprint.nodeIds)
    (hv : v ∈ j.blueprint.nodeIds) : j.accepted.plan.Before u v ↔
      ∃ n, Graph.EndsWithin j.accepted.graph.Arc n u ∧
        ¬Graph.EndsWithin j.accepted.graph.Arc n v := by
  obtain ⟨k, hlayers, -⟩ := Graph.exists_layers_eq h.wellFormed
  have hlayer {m : ℕ} (hm : m < j.accepted.plan.layers.length) : j.accepted.plan.layers[m] =
      Graph.level j.accepted.graph.Arc j.accepted.graph.nodes m := by
    simp [h.layers_eq, hlayers]
  constructor
  · rintro ⟨m, n, hm, hn, hlt, hum, hvn⟩
    rw [hlayer hm, Graph.mem_level] at hum
    rw [hlayer hn, Graph.mem_level] at hvn
    exact ⟨m + 1, hum.2.1, fun hends => hvn.2.2 (hends.mono hlt)⟩
  · rintro ⟨n, hends, hnot⟩
    obtain ⟨i, hi, hui⟩ := h.exists_layer hu
    obtain ⟨l, hl, hvl⟩ := h.exists_layer hv
    refine ⟨i, l, hi, hl, ?_, hui, hvl⟩
    rw [hlayer hi, Graph.mem_level] at hui
    rw [hlayer hl, Graph.mem_level] at hvl
    by_contra hle
    have hin : i < n := by
      by_contra hge
      exact hui.2.2 (hends.mono (not_lt.mp hge))
    exact hnot (hvl.2.1.mono (by omega))

end Job.Valid

/-! ## Jobs with more nodes -/

/-- Two jobs that were accepted under one registry that requires nothing, one with more nodes. -/
structure Job.Widens (j' j : Job) (added : List Node) : Prop where
  valid' : j'.Valid
  valid : j.Valid
  registry_eq : j'.registry = j.registry
  undemanding : j.registry.Undemanding
  blueprint : j'.blueprint.Widens j.blueprint added

namespace Job.Widens
variable {j j' : Job} {added : List Node}

theorem arc_eq (h : j'.Widens j added) : j'.accepted.graph.Arc = j.accepted.graph.Arc := by
  have hgraph' := h.valid'.graph_eq
  rw [h.registry_eq] at hgraph'
  rw [Blueprint.arc_iff_of_undemanding h.undemanding hgraph',
    Blueprint.arc_iff_of_undemanding h.undemanding h.valid.graph_eq, h.blueprint.joins_eq]

theorem mem_nodeIds (h : j'.Widens j added) {id : String} (hid : id ∈ j.blueprint.nodeIds) :
    id ∈ j'.blueprint.nodeIds :=
  h.blueprint.perm_nodeIds.mem_iff.mpr (List.mem_append_right _ hid)

theorem before_iff (h : j'.Widens j added) {u v : String} (hu : u ∈ j.blueprint.nodeIds)
    (hv : v ∈ j.blueprint.nodeIds) :
    j'.accepted.plan.Before u v ↔ j.accepted.plan.Before u v := by
  rw [h.valid'.before_iff_endsWithin (h.mem_nodeIds hu) (h.mem_nodeIds hv),
    h.valid.before_iff_endsWithin hu hv, h.arc_eq]

/-- An added node has no arcs. -/
theorem not_arc (h : j'.Widens j added) {n : Node} (hn : n ∈ added) (u : String) :
    ¬j.accepted.graph.Arc u n.id ∧ ¬j.accepted.graph.Arc n.id u := by
  rw [Blueprint.arc_iff_of_undemanding h.undemanding h.valid.graph_eq]
  constructor
  · rintro ⟨e, he, -, htarget⟩
    exact (h.blueprint.untouched n hn e he).2 htarget
  · rintro ⟨e, he, hsource, -⟩
    exact (h.blueprint.untouched n hn e he).1 hsource

theorem get?_configs_eq (h : j'.Widens j added) {n : Node} (hn : n ∈ j.blueprint.nodes) :
    j'.accepted.configs.get? n.id = j.accepted.configs.get? n.id := by
  have hids' := h.valid'.nodup_nodeIds
  obtain ⟨-, hconfigs⟩ :=
    Blueprint.validateConfigs_eq_ok.mp (Blueprint.validated_eq_ok.mp h.valid).1
  obtain ⟨-, hconfigs'⟩ :=
    Blueprint.validateConfigs_eq_ok.mp (Blueprint.validated_eq_ok.mp h.valid').1
  rw [h.registry_eq] at hconfigs'
  apply Option.ext
  intro c
  rw [← hconfigs, ← hconfigs', Blueprint.get?_configs hids',
    Blueprint.get?_configs h.valid.nodup_nodeIds]
  simp only [h.blueprint.mem_nodes]
  refine exists_congr fun m => and_congr_left fun hm => or_iff_right fun hadded => ?_
  exact h.blueprint.not_mem_added hids' (hm.1 ▸ List.mem_map_of_mem hn) hadded

/-- Without added nodes, each layer has the same nodes. -/
theorem forall₂_perm_layers (h : j'.Widens j []) :
    List.Forall₂ List.Perm j.accepted.plan.layers j'.accepted.plan.layers := by
  have hlevel (n : ℕ) : (Graph.level j.accepted.graph.Arc j.accepted.graph.nodes n).Perm
      (Graph.level j'.accepted.graph.Arc j'.accepted.graph.nodes n) := by
    rw [h.arc_eq, h.valid.nodes_eq, h.valid'.nodes_eq]
    exact h.blueprint.perm_nodeIds.symm.filter _
  rw [h.valid.layers_eq, h.valid'.layers_eq]
  refine Graph.forall₂_layers h.valid.wellFormed h.valid'.wellFormed hlevel fun n => ?_
  constructor
  · intro hnil
    exact List.nil_perm.mp (hnil ▸ hlevel n)
  · intro hnil
    exact List.perm_nil.mp (hnil ▸ hlevel n)

/-- Without added nodes and in the same order, the layers are the same. -/
theorem layers_eq (h : j'.Widens j []) (horder : j'.blueprint.nodeIds = j.blueprint.nodeIds) :
    j'.accepted.plan.layers = j.accepted.plan.layers := by
  have hlevel (i : ℕ) : Graph.level j'.accepted.graph.Arc j'.accepted.graph.nodes i =
      Graph.level j.accepted.graph.Arc j.accepted.graph.nodes i := by
    rw [h.arc_eq, h.valid.nodes_eq, h.valid'.nodes_eq, horder]
  rw [h.valid.layers_eq, h.valid'.layers_eq, ← List.forall₂_eq_eq_eq]
  refine Graph.forall₂_layers h.valid'.wellFormed h.valid.wellFormed hlevel fun i => ?_
  rw [hlevel]

/-- Where the other nodes stay in order, so do they in the layers. -/
theorem layers_eq_filter {n : Node} (h : j'.Widens j [n])
    (horder : (j'.blueprint.nodeIds.filter fun id => id ≠ n.id) = j.blueprint.nodeIds) :
    j.accepted.plan.layers =
      j'.accepted.plan.layers.map fun layer => layer.filter fun id => id ≠ n.id := by
  have hlevel (i : ℕ) : Graph.level j.accepted.graph.Arc j.accepted.graph.nodes i =
      (Graph.level j'.accepted.graph.Arc j'.accepted.graph.nodes i).filter fun id => id ≠ n.id := by
    rw [h.arc_eq, h.valid.nodes_eq, h.valid'.nodes_eq, ← horder]
    unfold Graph.level
    rw [List.filter_comm]
  have hfirst : Graph.EndsWithin j'.accepted.graph.Arc 1 n.id := by
    rw [h.arc_eq]
    exact Graph.endsWithin_succ.mpr fun u harc => absurd harc (h.not_arc (by simp) u).1
  -- The added node stands in the first layer, which is empty in neither plan.
  have hempty (i : ℕ) : Graph.level j.accepted.graph.Arc j.accepted.graph.nodes i = [] ↔
      Graph.level j'.accepted.graph.Arc j'.accepted.graph.nodes i = [] := by
    cases i with
    | zero => exact iff_of_false h.valid.level_zero_ne_nil h.valid'.level_zero_ne_nil
    | succ i =>
      rw [hlevel, List.filter_eq_self.mpr]
      intro id hid
      have hlater := (Graph.mem_level.mp hid).2.2
      have hne : id ≠ n.id := by
        rintro rfl
        exact hlater (hfirst.mono (by omega))
      simpa using hne
  have hrelated := Graph.forall₂_layers h.valid.wellFormed h.valid'.wellFormed
    (R := fun l l' => l = l'.filter fun id => id ≠ n.id) hlevel hempty
  rw [h.valid.layers_eq, h.valid'.layers_eq, ← List.forall₂_eq_eq_eq, List.forall₂_map_right_iff]
  exact hrelated

end Job.Widens
end ProjectComposer
