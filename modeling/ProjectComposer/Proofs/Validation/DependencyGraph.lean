import ProjectComposer.Proofs.Validation.Reported

/-!
The graph of a blueprint whose structure is valid. It is missing exactly where a node requires a
kind that no node has, and then the first such need of the first such node is reported. No arc leads
from a node to itself, and the sorted list holds every arc once, by the places of both ends.
-/
namespace ProjectComposer
set_option autoImplicit false

/-! ## Sorted arcs -/

namespace Graph

/-- The places of both ends of an arc, of its source first. -/
def arcPlaces (g : Graph) (a : String × String) : Nat × Nat :=
  (g.nodes.idxOf a.1, g.nodes.idxOf a.2)

namespace WellFormed
variable {g : Graph}

theorem sortedArcs_eq (hg : g.WellFormed) : g.sortedArcs = g.vertices.flatMap fun u =>
    (g.vertices.filter fun v => v.follows u.id).map fun v => (u.id, v.id) := by
  unfold sortedArcs
  rw [Vertex.distinct_eq_self hg.nodup_nodes]

theorem mem_sortedArcs_iff (hg : g.WellFormed) {u v : String} :
    (u, v) ∈ g.sortedArcs ↔ g.Arc u v := by
  rw [hg.sortedArcs_eq]
  simp only [List.mem_flatMap, List.mem_map, List.mem_filter, Prod.mk.injEq]
  constructor
  · rintro ⟨s, -, t, ⟨ht, hfollows⟩, rfl, rfl⟩
    exact (hg.follows_iff_arc ht).mp hfollows
  · intro harc
    obtain ⟨s, hs, rfl⟩ := mem_nodes.mp (hg.source_mem harc)
    obtain ⟨t, ht, rfl, hmem⟩ := harc
    exact ⟨s, hs, t, ⟨ht, Vertex.follows_iff.mpr hmem⟩, rfl, rfl⟩

/-- The arcs are listed by the place of their source; those of one source by that of their target,
and so each only once. -/
theorem pairwise_sortedArcs (hg : g.WellFormed) :
    g.sortedArcs.Pairwise fun a c => Prod.Lex (· < ·) (· < ·) (g.arcPlaces a) (g.arcPlaces c) := by
  have hplaces : g.vertices.Pairwise fun v w => g.nodes.idxOf v.id < g.nodes.idxOf w.id :=
    .of_map (·.id) (fun _ _ hlt => hlt) (pairwise_idxOf hg.nodup_nodes (.refl _))
  rw [hg.sortedArcs_eq, List.pairwise_flatMap]
  constructor
  · intro u _
    rw [List.pairwise_map]
    exact (hplaces.filter _).imp fun hlt => .right _ hlt
  · refine hplaces.imp fun {u w} hlt a ha c hc => ?_
    obtain ⟨v, -, rfl⟩ := List.mem_map.mp ha
    obtain ⟨x, -, rfl⟩ := List.mem_map.mp hc
    exact .left _ _ hlt

theorem nodup_sortedArcs (hg : g.WellFormed) : g.sortedArcs.Nodup := by
  refine hg.pairwise_sortedArcs.imp fun {a c} hlex heq => ?_
  rw [heq] at hlex
  exact absurd hlex (irrefl_of (Prod.Lex (· < ·) (· < ·)) (g.arcPlaces c))

end WellFormed
end Graph

/-! ## Edges -/

/-- An edge that joins two nodes leads from one to another. -/
theorem Edge.ends_ne {e : Edge} {nodes : List Node} {s t : Node} (h : e.ends nodes = .ok (s, t)) :
    s.id ≠ t.id := by
  unfold ends at h
  split at h
  · cases h
  · split at h
    · cases h
    · split at h
      · cases h
      · next hne =>
        cases h
        exact hne

namespace Blueprint
variable {b : Blueprint} {r : Registry}

theorem exists_ends (h : b.findings r = []) {e : Edge} (he : e ∈ b.edges) :
    ∃ s t, e.ends b.nodes = .ok (s, t) :=
  Edge.exists_ends (List.flatMap_eq_nil_iff.mp (findings_eq_nil.mp h).2.2.2.1 e he)

theorem Joins.ne (h : b.findings r = []) {u v : String} (hjoins : b.Joins u v) : u ≠ v := by
  obtain ⟨e, he, rfl, rfl⟩ := hjoins
  obtain ⟨s, t, hends⟩ := exists_ends h he
  obtain ⟨⟨-, hsource⟩, -, htarget⟩ := Edge.ends_mem hends
  rw [← hsource, ← htarget]
  exact Edge.ends_ne hends

/-! ## Needs -/

/-- Some node is of a kind. -/
def HasKind (b : Blueprint) (kind : String) : Prop :=
  ∃ m ∈ b.nodes, m.kind = kind

/-- Nodes of all kinds that a plugin requires are there. -/
def Meets (b : Blueprint) (p : Plugin) : Prop :=
  ∀ need ∈ p.requiredNeeds, b.HasKind need.kind

/-- A node requires the kind of a node, which may be its own. -/
def RequiresKindOf (b : Blueprint) (r : Registry) (v u : String) : Prop :=
  ∃ n ∈ b.nodes, n.id = v ∧ ∃ m ∈ b.nodes, m.id = u ∧
    ∃ p, r.get? n.kind = some p ∧ ∃ need ∈ p.requiredNeeds, need.kind = m.kind

/-- The first node with a need that is not met, and the first such need of its plugin. -/
structure FirstMissing (b : Blueprint) (r : Registry) (n : Node) (p : Plugin) (need : Need) :
    Prop where
  plugin_eq : r.get? n.kind = some p
  first_node : ∃ before after, b.nodes = before ++ n :: after ∧
    ∀ m ∈ before, ∀ q, r.get? m.kind = some q → b.Meets q
  first_need : ∃ before after, p.requiredNeeds = before ++ need :: after ∧
    ∀ d ∈ before, b.HasKind d.kind
  missing : ¬b.HasKind need.kind

theorem requires_iff {u v : String} : b.Requires r v u ↔ u ≠ v ∧ b.RequiresKindOf r v u := by
  constructor
  · rintro ⟨n, hn, p, need, hneed, m, hm, hp, hkind, hne, rfl, rfl⟩
    exact ⟨hne, n, hn, rfl, m, hm, rfl, p, hp, need, hneed, hkind.symm⟩
  · rintro ⟨hne, n, hn, rfl, m, hm, rfl, p, hp, need, hneed, hkind⟩
    exact ⟨n, hn, p, need, hneed, m, hm, hp, hkind.symm, hne, rfl, rfl⟩

theorem producers_eq_nil {kind : String} :
    (b.nodes.filter fun m => m.kind = kind) = [] ↔ ¬b.HasKind kind := by
  simp [HasKind]

theorem exists_needArcs_iff {n : Node} {p : Plugin} {need : Need} :
    (∃ arcs, b.needArcs n p need = .ok arcs) ↔ b.HasKind need.kind := by
  rw [← not_iff_not, ← producers_eq_nil]
  unfold needArcs
  split
  · next hnone => exact iff_of_true (by simp) hnone
  · next hsome => exact iff_of_false (by simp) hsome

theorem needArcs_eq_error {n : Node} {p : Plugin} {need : Need} {f : Failure} :
    b.needArcs n p need = .error f ↔ ¬b.HasKind need.kind ∧
      f = .fault (.ofKind (.missingDependency need.kind n.id (some p.id))) := by
  rw [← producers_eq_nil]
  unfold needArcs
  split
  · next hnone => rw [and_iff_right hnone, Except.error.injEq, eq_comm]
  · next hsome => exact iff_of_false (by simp) fun h => hsome h.1

theorem nodeArcs_eq {n : Node} {p : Plugin} (hp : r.get? n.kind = some p) :
    b.nodeArcs r n = (p.requiredNeeds.mapM (b.needArcs n p)).map List.flatten := by
  unfold nodeArcs
  rw [Registry.find_eq_ok.mpr hp]
  rfl

theorem exists_nodeArcs_iff {n : Node} {p : Plugin} (hp : r.get? n.kind = some p) :
    (∃ arcs, b.nodeArcs r n = .ok arcs) ↔ b.Meets p := by
  simp only [nodeArcs_eq hp, map_eq_ok, mapM_eq_ok]
  constructor
  · rintro ⟨arcs, parts, hparts, -⟩ need hneed
    obtain ⟨as, -, has⟩ := exists_mem_of_forall₂ hparts.flip hneed
    exact exists_needArcs_iff.mp ⟨as, has⟩
  · intro hmeets
    obtain ⟨parts, hparts⟩ := exists_forall₂ fun need hneed =>
      exists_needArcs_iff (n := n) (p := p) |>.mpr (hmeets need hneed)
    exact ⟨_, parts, hparts, rfl⟩

theorem nodeArcs_eq_error {n : Node} {p : Plugin} (hp : r.get? n.kind = some p) {f : Failure} :
    b.nodeArcs r n = .error f ↔ ∃ before need after, p.requiredNeeds = before ++ need :: after ∧
      (∀ d ∈ before, b.HasKind d.kind) ∧ ¬b.HasKind need.kind ∧
        f = .fault (.ofKind (.missingDependency need.kind n.id (some p.id))) := by
  simp only [nodeArcs_eq hp, map_eq_error, mapM_eq_error, exists_needArcs_iff, needArcs_eq_error]

/-! ## Graphs -/

theorem graph_of_findings (h : b.findings r = []) : b.graph r = b.connect r := by
  unfold graph
  rw [validateStructure_eq_ok (u := ()) |>.mpr h]
  rfl

/-- Once every node has its arcs, all of them can be added. -/
theorem exists_connect (h : b.findings r = []) {arcs : List (List (String × String))}
    (harcs : b.nodes.mapM (b.nodeArcs r) = .ok arcs) : ∃ g,
      (Graph.ofNodes b.nodeIds (.ofPairs (b.nodes.map fun n => (n.id, n.kind)))).addArcs
        (arcs.flatten ++ b.edgeArcs) = .ok g := by
  refine Graph.exists_addArcs fun a ha => ?_
  rw [Graph.nodes_ofNodes]
  rcases List.mem_append.mp ha with ha | ha
  · exact nodes_mem_of_nodeArcs harcs a ha
  · exact nodes_mem_of_edgeArcs h a ha

theorem exists_graph_iff (h : b.findings r = []) : (∃ g, b.graph r = .ok g) ↔
    ∀ n ∈ b.nodes, ∀ p, r.get? n.kind = some p → b.Meets p := by
  rw [graph_of_findings h]
  constructor
  · rintro ⟨g, hg⟩ n hn p hp
    obtain ⟨arcs, harcs, -⟩ := connect_eq_ok.mp hg
    obtain ⟨as, -, has⟩ := exists_mem_of_forall₂ harcs.flip hn
    exact (exists_nodeArcs_iff hp).mp ⟨as, has⟩
  · intro hmeets
    have hkinds := kindFindings_eq_nil.mp (findings_eq_nil.mp h).2.2.1
    obtain ⟨arcs, harcs⟩ := exists_forall₂ (R := fun n as => b.nodeArcs r n = .ok as) fun n hn => by
      obtain ⟨p, hp⟩ := hkinds n hn
      exact (exists_nodeArcs_iff hp).mpr (hmeets n hn p hp)
    obtain ⟨g, hg⟩ := exists_connect h (mapM_eq_ok.mpr harcs)
    exact ⟨g, connect_eq_ok.mpr ⟨arcs, harcs, hg⟩⟩

theorem graph_eq_error (h : b.findings r = []) {f : Failure} : b.graph r = .error f ↔
    ∃ n p need, b.FirstMissing r n p need ∧
      f = .fault (.ofKind (.missingDependency need.kind n.id (some p.id))) := by
  have hkinds := kindFindings_eq_nil.mp (findings_eq_nil.mp h).2.2.1
  have hconnect : b.connect r = .error f ↔ b.nodes.mapM (b.nodeArcs r) = .error f := by
    unfold connect
    rw [bind_eq_error, or_iff_left]
    rintro ⟨arcs, harcs, hadd⟩
    obtain ⟨g, hg⟩ := exists_connect h harcs
    cases hg.symm.trans hadd
  rw [graph_of_findings h, hconnect, mapM_eq_error]
  constructor
  · rintro ⟨before, n, after, hnodes, hbefore, hn⟩
    obtain ⟨p, hp⟩ := hkinds n (by simp [hnodes])
    obtain ⟨pre, need, post, hneeds, hpre, hmissing, rfl⟩ := (nodeArcs_eq_error hp).mp hn
    refine ⟨n, p, need, ⟨hp, ⟨before, after, hnodes, ?_⟩, ⟨pre, post, hneeds, hpre⟩, hmissing⟩, rfl⟩
    exact fun m hm q hq => (exists_nodeArcs_iff hq).mp (hbefore m hm)
  · rintro ⟨n, p, need, hfirst, rfl⟩
    obtain ⟨before, after, hnodes, hbefore⟩ := hfirst.first_node
    obtain ⟨pre, post, hneeds, hpre⟩ := hfirst.first_need
    refine ⟨before, n, after, hnodes, fun m hm => ?_, ?_⟩
    · obtain ⟨q, hq⟩ := hkinds m (by simp [hnodes, hm])
      exact (exists_nodeArcs_iff hq).mpr (hbefore m hm q hq)
    · exact (nodeArcs_eq_error hfirst.plugin_eq).mpr
        ⟨pre, need, post, hneeds, hpre, hfirst.missing, rfl⟩

end Blueprint
end ProjectComposer
