import ProjectComposer.Proofs.Except
import ProjectComposer.Proofs.Graph.Layers
import ProjectComposer.Validation.Dependencies

/-!
Accepted blueprints. A blueprint is accepted if its configs, its structure and its dependencies are
in order. Its node ids are then distinct, they are the nodes of its graph, and the plan orders them.
-/
namespace ProjectComposer
set_option autoImplicit false

/-! ## Ids -/

theorem idFindings_eq_nil {seen : List String} {nodes : List Node} :
    idFindings seen nodes = [] ↔
      (∀ n ∈ nodes, n.id ≠ "" ∧ n.id ∉ seen) ∧ (nodes.map (·.id)).Nodup := by
  induction nodes generalizing seen with
  | nil => simp [idFindings]
  | cons n more ih =>
    unfold idFindings
    split
    · next hempty => simp [hempty]
    · next hid =>
      split
      · next hseen => simp [hseen]
      · next hseen =>
        rw [ih, List.forall_mem_cons, List.map_cons, List.nodup_cons]
        constructor
        · rintro ⟨hrest, hnodup⟩
          refine ⟨⟨⟨hid, hseen⟩, fun m hm => ?_⟩, ?_, hnodup⟩
          · exact ⟨(hrest m hm).1, fun h => (hrest m hm).2 (List.mem_cons_of_mem _ h)⟩
          · intro h
            obtain ⟨m, hm, hmn⟩ := List.mem_map.mp h
            exact (hrest m hm).2 (hmn ▸ List.mem_cons_self)
        · rintro ⟨⟨-, hrest⟩, hn, hnodup⟩
          refine ⟨fun m hm => ⟨(hrest m hm).1, fun h => ?_⟩, hnodup⟩
          rcases List.mem_cons.mp h with hmn | h
          · exact hn (List.mem_map.mpr ⟨m, hm, hmn⟩)
          · exact (hrest m hm).2 h

/-- Where no id is missing or repeated, every node stands for its own id. -/
theorem firstNodes_eq_self {seen : List String} {nodes : List Node}
    (h : idFindings seen nodes = []) : firstNodes seen nodes = nodes := by
  induction nodes generalizing seen with
  | nil => rfl
  | cons n more ih =>
    have hn := (idFindings_eq_nil.mp h).1 n List.mem_cons_self
    unfold idFindings at h
    rw [if_neg hn.1, if_neg hn.2] at h
    rw [firstNodes, if_neg (not_or.mpr hn), ih h]

namespace Blueprint
variable {b : Blueprint} {r : Registry}

/-! ## Structure -/

theorem findings_eq_nil : b.findings r = [] ↔
    b.nodes ≠ [] ∧ idFindings [] b.nodes = [] ∧ kindFindings r b.nodes = [] ∧
      b.edges.flatMap (fun e => e.findings r b.nodes) = [] ∧
      inputFindings r ((b.edges.filter fun e => e.isWired r b.nodes).map (·.target)) b.nodes =
        [] := by
  unfold findings
  cases hnodes : b.nodes with
  | nil => simp
  | cons n more =>
    rw [List.isEmpty_cons, if_neg Bool.false_ne_true]
    simp only [List.append_eq_nil_iff, and_assoc]
    constructor
    · rintro ⟨hids, hrest⟩
      rw [firstNodes_eq_self hids] at hrest
      exact ⟨List.cons_ne_nil _ _, hids, hrest⟩
    · rintro ⟨-, hids, hrest⟩
      rw [firstNodes_eq_self hids]
      exact ⟨hids, hrest⟩

theorem validateStructure_eq_ok {u : Unit} : b.validateStructure r = .ok u ↔ b.findings r = [] := by
  unfold validateStructure
  split
  · next h => simp [h]
  · next h =>
    refine iff_of_false ?_ h
    intro h'
    cases h'

theorem nodup_nodeIds (h : b.findings r = []) : b.nodeIds.Nodup :=
  (idFindings_eq_nil.mp (findings_eq_nil.mp h).2.1).2

/-! ## Graphs -/

theorem graph_eq_ok {g : Graph} :
    b.graph r = .ok g ↔ b.findings r = [] ∧ b.connect r = .ok g := by
  unfold graph
  simp only [bind_eq_ok, mapError_eq_ok, validateStructure_eq_ok, exists_const]

theorem connect_eq_ok {g : Graph} : b.connect r = .ok g ↔
    ∃ arcs, List.Forall₂ (fun n as => b.nodeArcs r n = .ok as) b.nodes arcs ∧
      (Graph.ofNodes b.nodeIds (.ofPairs (b.nodes.map fun n => (n.id, n.kind)))).addArcs
        (arcs.flatten ++ b.edgeArcs) = .ok g := by
  unfold connect
  simp only [bind_eq_ok, mapM_eq_ok]

theorem nodes_connect {g : Graph} (h : b.connect r = .ok g) : g.nodes = b.nodeIds := by
  obtain ⟨arcs, -, hadd⟩ := connect_eq_ok.mp h
  rw [(Graph.extends_addArcs hadd).nodes_eq, Graph.nodes_ofNodes]

theorem wellFormed_graph {g : Graph} (h : b.graph r = .ok g) : g.WellFormed := by
  obtain ⟨hfindings, hconnect⟩ := graph_eq_ok.mp h
  obtain ⟨arcs, -, hadd⟩ := connect_eq_ok.mp hconnect
  exact (Graph.extends_addArcs hadd).wellFormed
    (Graph.wellFormed_ofNodes (nodup_nodeIds hfindings) _)

/-! ## Accepted blueprints -/

theorem validated_eq_ok {a : Accepted} : b.validated r = .ok a ↔
    b.validateConfigs r = .ok a.configs ∧ b.graph r = .ok a.graph ∧
      a.graph.plan = .ok a.plan := by
  unfold validated
  simp only [bind_eq_ok, mapError_eq_ok, pure_eq_ok]
  constructor
  · rintro ⟨configs, hconfigs, g, hg, p, hp, rfl⟩
    exact ⟨hconfigs, hg, hp⟩
  · rintro ⟨hconfigs, hg, hp⟩
    exact ⟨_, hconfigs, _, hg, _, hp, rfl⟩

theorem perm_order_nodeIds {a : Accepted} (h : b.validated r = .ok a) :
    a.plan.order.Perm b.nodeIds := by
  obtain ⟨-, hgraph, hplan⟩ := validated_eq_ok.mp h
  obtain ⟨hp, hperm⟩ := (Graph.plan_eq_ok (wellFormed_graph hgraph)).mp hplan
  rw [nodes_connect (graph_eq_ok.mp hgraph).2] at hperm
  rwa [hp]

end Blueprint
end ProjectComposer
