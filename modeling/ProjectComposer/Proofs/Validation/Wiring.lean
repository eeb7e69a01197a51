import ProjectComposer.Proofs.Execution.Completed
import ProjectComposer.Proofs.Table
import ProjectComposer.Proofs.Validation.Accepted

/-!
The wiring of an accepted blueprint. Every node is of a registered kind and has a config, so the
call for it finds all that it looks up. Every required input is the target of an edge. The arcs of
the graph are the edges and the required needs, and whatever one leads to lies in a later layer of
the plan than where it comes from.
-/
namespace ProjectComposer
set_option autoImplicit false

/-! ## Findings -/

theorem kindFindings_eq_nil {r : Registry} {nodes : List Node} :
    kindFindings r nodes = [] ↔ ∀ n ∈ nodes, ∃ p, r.get? n.kind = some p := by
  unfold kindFindings
  rw [List.filterMap_eq_nil_iff]
  refine forall₂_congr fun n _ => ?_
  rw [← Option.isSome_iff_exists]
  unfold Registry.has
  cases (r.get? n.kind).isSome <;> simp

theorem inputFindings_eq_nil {r : Registry} {wired : List Endpoint} {nodes : List Node} :
    inputFindings r wired nodes = [] ↔ ∀ n ∈ nodes, ∀ p, r.get? n.kind = some p →
      ∀ q ∈ p.inputPorts, q.required = true → ⟨n.id, q.id⟩ ∈ wired := by
  unfold inputFindings
  rw [List.flatMap_eq_nil_iff]
  refine forall₂_congr fun n _ => ?_
  cases r.get? n.kind with
  | none => simp
  | some p =>
    simp only [List.filterMap_eq_nil_iff, Option.some.injEq, forall_eq']
    refine forall₂_congr fun q _ => ?_
    by_cases h : q.required = true ∧ ⟨n.id, q.id⟩ ∉ wired
    · simp [h]
    · rw [if_neg h]
      simp only [not_and, not_not] at h
      exact iff_of_true rfl h

/-! ## Arcs -/

namespace Blueprint
variable {b : Blueprint} {r : Registry}

/-- An edge leads from one node to another. -/
def Joins (b : Blueprint) (u v : String) : Prop :=
  ∃ e ∈ b.edges, e.source.node = u ∧ e.target.node = v

/-- A node requires the kind of another one. -/
def Requires (b : Blueprint) (r : Registry) (v u : String) : Prop :=
  ∃ n ∈ b.nodes, ∃ p, ∃ need ∈ p.requiredNeeds, ∃ m ∈ b.nodes,
    r.get? n.kind = some p ∧ m.kind = need.kind ∧ m.id ≠ n.id ∧ n.id = v ∧ m.id = u

theorem mem_needArcs {n : Node} {p : Plugin} {need : Need} {arcs : List (String × String)}
    (h : b.needArcs n p need = .ok arcs) {a : String × String} :
    a ∈ arcs ↔ ∃ m ∈ b.nodes, m.kind = need.kind ∧ m.id ≠ n.id ∧ a = (m.id, n.id) := by
  unfold needArcs at h
  split at h
  · cases h
  · obtain rfl := Except.ok.inj h
    simp only [List.mem_map, List.mem_filter, decide_eq_true_eq, ne_eq, decide_not,
      Bool.not_eq_true', decide_eq_false_iff_not, and_assoc, eq_comm (a := a)]

theorem nodeArcs_eq_ok {n : Node} {arcs : List (String × String)} : b.nodeArcs r n = .ok arcs ↔
    ∃ p, r.get? n.kind = some p ∧
      ∃ parts, List.Forall₂ (fun need as => b.needArcs n p need = .ok as) p.requiredNeeds parts ∧
        parts.flatten = arcs := by
  unfold nodeArcs
  simp only [bind_eq_ok, Registry.find_eq_ok, mapM_eq_ok, pure_eq_ok]

theorem mem_nodeArcs {n : Node} {arcs : List (String × String)} (h : b.nodeArcs r n = .ok arcs)
    {a : String × String} : a ∈ arcs ↔ ∃ p, r.get? n.kind = some p ∧ ∃ need ∈ p.requiredNeeds,
      ∃ m ∈ b.nodes, m.kind = need.kind ∧ m.id ≠ n.id ∧ a = (m.id, n.id) := by
  obtain ⟨p, hp, parts, hparts, rfl⟩ := nodeArcs_eq_ok.mp h
  simp only [hp, Option.some.injEq, exists_eq_left']
  rw [List.mem_flatten]
  constructor
  · rintro ⟨as, has, ha⟩
    obtain ⟨need, hneed, hok⟩ := exists_mem_of_forall₂ hparts has
    exact ⟨need, hneed, (mem_needArcs hok).mp ha⟩
  · rintro ⟨need, hneed, hm⟩
    obtain ⟨as, has, hok⟩ := exists_mem_of_forall₂ hparts.flip hneed
    exact ⟨as, has, (mem_needArcs hok).mpr hm⟩

/-- The arcs of the graph are the edges and the required needs. -/
theorem arc_iff {g : Graph} (h : b.graph r = .ok g) {u v : String} :
    g.Arc u v ↔ b.Joins u v ∨ b.Requires r v u := by
  obtain ⟨arcs, harcs, hadd⟩ := connect_eq_ok.mp (graph_eq_ok.mp h).2
  rw [(Graph.extends_addArcs hadd).arc_iff, or_iff_left (Graph.not_arc_ofNodes _ _ u v),
    List.mem_append, or_comm]
  refine or_congr ?_ ?_
  · simp [edgeArcs, Joins]
  · rw [List.mem_flatten]
    constructor
    · rintro ⟨as, has, ha⟩
      obtain ⟨n, hn, hok⟩ := exists_mem_of_forall₂ harcs has
      obtain ⟨p, hp, need, hneed, m, hm, hkind, hne, hsame⟩ := (mem_nodeArcs hok).mp ha
      obtain ⟨rfl, rfl⟩ := Prod.mk.inj hsame
      exact ⟨n, hn, p, need, hneed, m, hm, hp, hkind, hne, rfl, rfl⟩
    · rintro ⟨n, hn, p, need, hneed, m, hm, hp, hkind, hne, rfl, rfl⟩
      obtain ⟨as, has, hok⟩ := exists_mem_of_forall₂ harcs.flip hn
      exact ⟨as, has, (mem_nodeArcs hok).mpr ⟨p, hp, need, hneed, m, hm, hkind, hne, rfl⟩⟩

/-! ## Configs -/

theorem validateConfigs_eq_ok {configs : Table Config} :
    b.validateConfigs r = .ok configs ↔ b.configIssues r = [] ∧ b.configs r = configs := by
  unfold validateConfigs
  split
  · next h => simp [h]
  · next h => simp [h]

/-- Where no config is refused, every node of a registered kind has one. -/
theorem mem_keys_configs (h : b.configIssues r = []) {n : Node} (hn : n ∈ b.nodes) {p : Plugin}
    (hp : r.get? n.kind = some p) : n.id ∈ (b.configs r).keys := by
  unfold configs
  rw [Table.mem_keys_ofPairs, List.mem_map]
  have hread : n.readConfig r = some (p.schema.read n.config) := by rw [Node.readConfig, hp]; rfl
  cases hconfig : p.schema.read n.config with
  | error is =>
    have hnone := List.filterMap_eq_nil_iff.mp h n hn
    rw [hread, hconfig] at hnone
    cases hnone
  | ok c =>
    refine ⟨(n.id, c), List.mem_filterMap.mpr ⟨n, hn, ?_⟩, rfl⟩
    rw [hread, hconfig]

/-! ## Nodes -/

theorem exists_node? {id : String} (h : id ∈ b.nodeIds) : ∃ n, b.node? id = some n := by
  obtain ⟨n, hn, rfl⟩ := List.mem_map.mp h
  cases hfind : b.node? n.id with
  | some m => exact ⟨m, rfl⟩
  | none => simpa using List.find?_eq_none.mp hfind n (List.mem_reverse.mpr hn)

end Blueprint

/-! ## Accepted blueprints -/

/-- A job whose blueprint was accepted by validation. -/
def Job.Valid (j : Job) : Prop :=
  j.blueprint.validated j.registry = .ok j.accepted

namespace Job.Valid
variable {j : Job}

theorem graph_eq (h : j.Valid) : j.blueprint.graph j.registry = .ok j.accepted.graph :=
  (Blueprint.validated_eq_ok.mp h).2.1

theorem findings_eq (h : j.Valid) : j.blueprint.findings j.registry = [] :=
  (Blueprint.graph_eq_ok.mp h.graph_eq).1

theorem nodup_nodeIds (h : j.Valid) : j.blueprint.nodeIds.Nodup :=
  Blueprint.nodup_nodeIds h.findings_eq

theorem wellFormed (h : j.Valid) : j.accepted.graph.WellFormed :=
  Blueprint.wellFormed_graph h.graph_eq

theorem nodes_eq (h : j.Valid) : j.accepted.graph.nodes = j.blueprint.nodeIds :=
  Blueprint.nodes_connect (Blueprint.graph_eq_ok.mp h.graph_eq).2

theorem arc_iff (h : j.Valid) {u v : String} : j.accepted.graph.Arc u v ↔
    j.blueprint.Joins u v ∨ j.blueprint.Requires j.registry v u :=
  Blueprint.arc_iff h.graph_eq

theorem perm_order (h : j.Valid) : j.accepted.plan.order.Perm j.blueprint.nodeIds :=
  Blueprint.perm_order_nodeIds h

theorem nodup_order (h : j.Valid) : j.accepted.plan.order.Nodup :=
  h.perm_order.nodup_iff.mpr h.nodup_nodeIds

theorem isLayering (h : j.Valid) :
    Graph.IsLayering j.accepted.graph.Arc j.blueprint.nodeIds j.accepted.plan.layers :=
  h.nodes_eq ▸ Graph.isLayering_layers h.wellFormed (Blueprint.validated_eq_ok.mp h).2.2

theorem exists_plugin (h : j.Valid) {n : Node} (hn : n ∈ j.blueprint.nodes) :
    ∃ p, j.registry.get? n.kind = some p :=
  kindFindings_eq_nil.mp (Blueprint.findings_eq_nil.mp h.findings_eq).2.2.1 n hn

/-- A required input is the target of an edge. -/
theorem exists_edge (h : j.Valid) {n : Node} (hn : n ∈ j.blueprint.nodes) {p : Plugin}
    (hp : j.registry.get? n.kind = some p) {q : Port} (hq : q ∈ p.inputPorts)
    (hrequired : q.required = true) : ∃ e ∈ j.blueprint.edges, e.target = ⟨n.id, q.id⟩ := by
  have hinputs := (Blueprint.findings_eq_nil.mp h.findings_eq).2.2.2.2
  obtain ⟨e, he, htarget⟩ :=
    List.mem_map.mp (inputFindings_eq_nil.mp hinputs n hn p hp q hq hrequired)
  exact ⟨e, (List.mem_filter.mp he).1, htarget⟩

/-- All that the call for a node looks up is there. -/
theorem exists_call (h : j.Valid) {id : String} (hid : id ∈ j.blueprint.nodeIds)
    (finished : Table Output) : ∃ c, j.call finished id = .ok c := by
  obtain ⟨n, hnode⟩ := Blueprint.exists_node? hid
  obtain ⟨hn, rfl⟩ := Blueprint.id_of_node? hnode
  obtain ⟨p, hp⟩ := h.exists_plugin hn
  obtain ⟨hissues, hconfigs⟩ :=
    Blueprint.validateConfigs_eq_ok.mp (Blueprint.validated_eq_ok.mp h).1
  obtain ⟨config, hconfig⟩ :=
    Table.mem_keys_iff_get?.mp (Blueprint.mem_keys_configs hissues hn hp)
  rw [hconfigs] at hconfig
  exact ⟨⟨n, p, j.context n p config finished⟩, call_eq_ok.mpr ⟨hnode, hp, config, hconfig, rfl⟩⟩

end Job.Valid
end ProjectComposer
