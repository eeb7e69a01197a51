import ProjectComposer.Proofs.Diagnostic.Reported
import ProjectComposer.Proofs.Graph.ShortestCycle
import ProjectComposer.Proofs.Validation.Wiring

/-!
Validation ends with a value or a reported failure, whatever the blueprint and the registry. Without
findings about the structure every node is of a registered kind and every edge joins two nodes, so
all arcs can be added; and where vertices are left over, the search for a cycle starts at vertices
alone.
-/
namespace ProjectComposer
set_option autoImplicit false

/-! ## Edges -/

theorem Edge.ends_mem {e : Edge} {nodes : List Node} {s t : Node} (h : e.ends nodes = .ok (s, t)) :
    (s ∈ nodes ∧ s.id = e.source.node) ∧ t ∈ nodes ∧ t.id = e.target.node := by
  unfold ends at h
  split at h
  · cases h
  · next s' hs =>
    split at h
    · cases h
    · next t' ht =>
      split at h
      · cases h
      · cases h
        have hsource : s.id = e.source.node := by simpa using List.find?_some hs
        have htarget : t.id = e.target.node := by simpa using List.find?_some ht
        exact ⟨⟨List.mem_of_find?_eq_some hs, hsource⟩, List.mem_of_find?_eq_some ht, htarget⟩

theorem Edge.exists_ends {e : Edge} {r : Registry} {nodes : List Node}
    (h : e.findings r nodes = []) : ∃ s t, e.ends nodes = .ok (s, t) := by
  unfold findings at h
  cases hends : e.ends nodes with
  | error f =>
    rw [hends] at h
    cases h
  | ok st => exact ⟨st.1, st.2, rfl⟩

/-! ## Plans -/

namespace Graph
variable {g : Graph} {more : List String}

/-- The search finds the vertex of every start that is a node of the graph. -/
theorem exists_bestCycle_eq_ok (inside : List String) (h : more ⊆ g.nodes)
    (best : Option (List String)) :
    ∃ best', g.bestCycle inside more best = .ok best' := by
  induction more generalizing best with
  | nil => exact ⟨best, rfl⟩
  | cons s more ih =>
    obtain ⟨hs, hmore⟩ := List.cons_subset.mp h
    obtain ⟨start, -, -, hstart⟩ := exists_find?_eq_some hs
    rw [bestCycle, hstart]
    dsimp only
    split
    · exact ⟨_, rfl⟩
    · exact ih hmore _

theorem onlyReported_plan (g : Graph) : OnlyReported g.plan := by
  obtain ⟨best, hbest⟩ := exists_bestCycle_eq_ok g.leftOver g.leftOver_sublist.subset none
  have hcycle : g.shortestCycle g.leftOver = .ok (best.getD g.leftOver) := by
    rw [shortestCycle, hbest]
    rfl
  unfold plan
  dsimp only
  split
  · exact .ok _
  · refine OnlyReported.bind (.of_exists ⟨_, hcycle⟩) fun cycle _ => .ofKind _ _

end Graph

/-! ## Blueprints -/

namespace Blueprint
variable {b : Blueprint} {r : Registry}

theorem diagnosed_validateConfigs (b : Blueprint) (r : Registry) :
    Diagnosed (b.validateConfigs r) := by
  intro f hf
  unfold validateConfigs at hf
  split at hf
  · cases hf
  · cases hf
    exact Fault.diagnostics_ofKind_ne_nil _ _

theorem diagnosed_validateStructure (b : Blueprint) (r : Registry) :
    Diagnosed (b.validateStructure r) := by
  intro f hf
  unfold validateStructure at hf
  split at hf
  · cases hf
  · cases hf
    exact Fault.diagnostics_ofKind_ne_nil _ _

theorem onlyReported_needArcs (n : Node) (p : Plugin) (need : Need) :
    OnlyReported (b.needArcs n p need) := by
  unfold needArcs
  split
  · exact .ofKind _ _
  · exact .ok _

theorem onlyReported_nodeArcs {n : Node} {p : Plugin} (hp : r.get? n.kind = some p) :
    OnlyReported (b.nodeArcs r n) := by
  unfold nodeArcs
  refine OnlyReported.bind (.of_exists ⟨p, Registry.find_eq_ok.mpr hp⟩) fun q _ => ?_
  exact OnlyReported.bind (.mapM fun need _ => onlyReported_needArcs n q need) fun arcs _ => .ok _

theorem nodes_mem_of_edgeArcs (h : b.findings r = []) :
    ∀ a ∈ b.edgeArcs, a.1 ∈ b.nodeIds ∧ a.2 ∈ b.nodeIds := by
  intro a ha
  obtain ⟨e, he, rfl⟩ := List.mem_map.mp ha
  have hedges := List.flatMap_eq_nil_iff.mp (findings_eq_nil.mp h).2.2.2.1
  obtain ⟨s, t, hends⟩ := Edge.exists_ends (hedges e he)
  obtain ⟨⟨hs, hsource⟩, ht, htarget⟩ := Edge.ends_mem hends
  exact ⟨List.mem_map.mpr ⟨s, hs, hsource⟩, List.mem_map.mpr ⟨t, ht, htarget⟩⟩

theorem nodes_mem_of_nodeArcs {arcs : List (List (String × String))}
    (h : b.nodes.mapM (b.nodeArcs r) = .ok arcs) :
    ∀ a ∈ arcs.flatten, a.1 ∈ b.nodeIds ∧ a.2 ∈ b.nodeIds := by
  intro a ha
  obtain ⟨as, has, ha⟩ := List.mem_flatten.mp ha
  obtain ⟨n, hn, hok⟩ := exists_mem_of_forall₂ (mapM_eq_ok.mp h) has
  obtain ⟨p, -, need, -, m, hm, -, -, rfl⟩ := (mem_nodeArcs hok).mp ha
  exact ⟨List.mem_map_of_mem hm, List.mem_map_of_mem hn⟩

theorem onlyReported_connect (h : b.findings r = []) : OnlyReported (b.connect r) := by
  have hkinds := kindFindings_eq_nil.mp (findings_eq_nil.mp h).2.2.1
  unfold connect
  refine OnlyReported.bind (.mapM fun n hn => ?_) fun arcs harcs => .of_exists ?_
  · obtain ⟨p, hp⟩ := hkinds n hn
    exact onlyReported_nodeArcs hp
  · -- All arcs lead between nodes, so none is refused.
    refine Graph.exists_addArcs fun a ha => ?_
    rw [Graph.nodes_ofNodes]
    rcases List.mem_append.mp ha with ha | ha
    · exact nodes_mem_of_nodeArcs harcs a ha
    · exact nodes_mem_of_edgeArcs h a ha

theorem onlyReported_graph (b : Blueprint) (r : Registry) : OnlyReported (b.graph r) := by
  unfold graph
  refine OnlyReported.bind (diagnosed_validateStructure b r).mapError fun u hu => ?_
  exact onlyReported_connect (validateStructure_eq_ok.mp (mapError_eq_ok.mp hu))

theorem onlyReported_validated (b : Blueprint) (r : Registry) : OnlyReported (b.validated r) := by
  unfold validated
  refine OnlyReported.bind (diagnosed_validateConfigs b r).mapError fun configs _ => ?_
  refine OnlyReported.bind (onlyReported_graph b r) fun g _ => ?_
  exact OnlyReported.bind g.onlyReported_plan fun p _ => .ok _

end Blueprint
end ProjectComposer
