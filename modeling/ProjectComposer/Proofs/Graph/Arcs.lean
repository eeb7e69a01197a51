import ProjectComposer.Graph.Basic
import ProjectComposer.Proofs.Graph.Walk

/-!
Arcs of a graph as a relation, and the graphs that adding arcs can build: their nodes are distinct
and every vertex lists nodes of the graph, once each. Adding arcs succeeds between nodes of the
graph, keeps the nodes and adds these arcs to the relation and no others.
-/
namespace ProjectComposer
set_option autoImplicit false

theorem Vertex.follows_iff {v : Vertex} {u : String} : v.follows u = true ↔ u ∈ v.predecessors := by
  simp [Vertex.follows]

theorem Vertex.nodup_predecessors_addPredecessor {v : Vertex} (h : v.predecessors.Nodup)
    (u : String) : (v.addPredecessor u).predecessors.Nodup := by
  unfold Vertex.addPredecessor
  split
  · exact h
  · next hu =>
    have hu' : u ∉ v.predecessors := fun hm => hu (Vertex.follows_iff.mpr hm)
    rw [← List.concat_eq_append]
    exact h.concat hu'

/-- Where ids are distinct, every vertex stands for itself. -/
theorem Vertex.distinct_eq_self {vs : List Vertex} (h : (vs.map (·.id)).Nodup) :
    Vertex.distinct vs = vs := by
  induction vs with
  | nil => rfl
  | cons v vs ih =>
    obtain ⟨hv, hvs⟩ := List.nodup_cons.mp h
    have hany : ¬(vs.any fun w => w.id = v.id) = true := by
      intro hw
      obtain ⟨w, hw, hid⟩ := List.any_eq_true.mp hw
      exact hv (List.mem_map.mpr ⟨w, hw, of_decide_eq_true hid⟩)
    rw [Vertex.distinct, if_neg hany, ih hvs]

namespace Graph

/-! ## Relation -/

/-- Whether an arc leads from one node to another. -/
def Arc (g : Graph) (u v : String) : Prop :=
  ∃ w ∈ g.vertices, w.id = v ∧ u ∈ w.predecessors

structure WellFormed (g : Graph) : Prop where
  nodup_nodes : g.nodes.Nodup
  nodup_predecessors : ∀ w ∈ g.vertices, w.predecessors.Nodup
  predecessors_subset : ∀ w ∈ g.vertices, w.predecessors ⊆ g.nodes

theorem mem_nodes {g : Graph} {v : String} : v ∈ g.nodes ↔ ∃ w ∈ g.vertices, w.id = v :=
  List.mem_map

theorem id_mem_nodes {g : Graph} {w : Vertex} (hw : w ∈ g.vertices) : w.id ∈ g.nodes :=
  mem_nodes.mpr ⟨w, hw, rfl⟩

theorem exists_find?_eq_some {g : Graph} {id : String} (h : id ∈ g.nodes) :
    ∃ v ∈ g.vertices, v.id = id ∧ g.vertices.find? (fun w => w.id = id) = some v := by
  obtain ⟨w, hw, hid⟩ := mem_nodes.mp h
  cases hfind : g.vertices.find? fun w => w.id = id with
  | none => exact absurd hid (by simpa using List.find?_eq_none.mp hfind w hw)
  | some v =>
    have hv : v.id = id := by simpa using List.find?_some hfind
    exact ⟨v, List.mem_of_find?_eq_some hfind, hv, rfl⟩

theorem Arc.target_mem {g : Graph} {u v : String} (h : g.Arc u v) : v ∈ g.nodes := by
  obtain ⟨w, hw, rfl, -⟩ := h
  exact id_mem_nodes hw

namespace WellFormed
variable {g : Graph}

theorem vertex_ext (hg : g.WellFormed) {v w : Vertex} (hv : v ∈ g.vertices) (hw : w ∈ g.vertices)
    (h : v.id = w.id) : v = w :=
  List.inj_on_of_nodup_map hg.nodup_nodes hv hw h

theorem arc_iff (hg : g.WellFormed) {u : String} {w : Vertex} (hw : w ∈ g.vertices) :
    g.Arc u w.id ↔ u ∈ w.predecessors := by
  constructor
  · rintro ⟨w', hw', hid, hu⟩
    rwa [hg.vertex_ext hw' hw hid] at hu
  · intro hu
    exact ⟨w, hw, rfl, hu⟩

theorem follows_iff_arc (hg : g.WellFormed) {u : String} {w : Vertex} (hw : w ∈ g.vertices) :
    w.follows u = true ↔ g.Arc u w.id :=
  Vertex.follows_iff.trans (hg.arc_iff hw).symm

theorem source_mem (hg : g.WellFormed) {u v : String} (h : g.Arc u v) : u ∈ g.nodes := by
  obtain ⟨w, hw, -, hu⟩ := h
  exact hg.predecessors_subset w hw hu

theorem mem_predecessors_iff (hg : g.WellFormed) {u v : String} :
    u ∈ g.predecessors v ↔ g.Arc u v := by
  unfold predecessors
  cases hfind : g.vertices.find? fun w => w.id = v with
  | none =>
    refine iff_of_false List.not_mem_nil ?_
    rintro ⟨w, hw, hid, -⟩
    simpa [hid] using List.find?_eq_none.mp hfind w hw
  | some w =>
    have hid : w.id = v := by simpa using List.find?_some hfind
    rw [← hid, hg.arc_iff (List.mem_of_find?_eq_some hfind)]

end WellFormed

/-! ## Nodes without arcs -/

theorem nodes_ofNodes (nodes : List String) (kinds : Table String) :
    (ofNodes nodes kinds).nodes = nodes := by
  simp [ofNodes, Graph.nodes, Function.comp_def]

theorem not_arc_ofNodes (nodes : List String) (kinds : Table String) (u v : String) :
    ¬(ofNodes nodes kinds).Arc u v := by
  rintro ⟨w, hw, -, hu⟩
  obtain ⟨id, -, rfl⟩ := List.mem_map.mp hw
  exact List.not_mem_nil hu

theorem wellFormed_ofNodes {nodes : List String} (h : nodes.Nodup) (kinds : Table String) :
    (ofNodes nodes kinds).WellFormed where
  nodup_nodes := by rwa [nodes_ofNodes]
  nodup_predecessors := by
    intro w hw
    obtain ⟨id, -, rfl⟩ := List.mem_map.mp hw
    exact List.nodup_nil
  predecessors_subset := by
    intro w hw
    obtain ⟨id, -, rfl⟩ := List.mem_map.mp hw
    exact List.nil_subset _

/-! ## Adding one arc -/

/-- What a successful addition of arcs does to a graph. -/
structure Extends (g g' : Graph) (arcs : List (String × String)) : Prop where
  nodes_eq : g'.nodes = g.nodes
  wellFormed : g.WellFormed → g'.WellFormed
  arc_iff : ∀ x y, g'.Arc x y ↔ (x, y) ∈ arcs ∨ g.Arc x y

/-- The vertices once an arc is added. -/
def vertexWith (u v : String) (w : Vertex) : Vertex :=
  if w.id = v then w.addPredecessor u else w

@[simp] theorem id_vertexWith (u v : String) (w : Vertex) : (vertexWith u v w).id = w.id := by
  unfold vertexWith
  split <;> simp

theorem mem_predecessors_vertexWith {u v x : String} {w : Vertex} :
    x ∈ (vertexWith u v w).predecessors ↔ (x = u ∧ w.id = v) ∨ x ∈ w.predecessors := by
  unfold vertexWith
  split
  · next h => simp [Vertex.mem_predecessors_addPredecessor, h]
  · next h => simp [h]

theorem addArc_eq_ok {g g' : Graph} {u v : String} : g.addArc u v = .ok g' ↔
    u ∈ g.nodes ∧ v ∈ g.nodes ∧ g' = { g with vertices := g.vertices.map (vertexWith u v) } := by
  unfold addArc
  split
  · next h => simp [h]
  · next hu =>
    split
    · next h => simp [h]
    · next hv =>
      rw [Except.ok.injEq]
      constructor
      · rintro rfl
        exact ⟨not_not.mp hu, not_not.mp hv, rfl⟩
      · rintro ⟨-, -, rfl⟩
        rfl

theorem extends_addArc {g g' : Graph} {u v : String} (h : g.addArc u v = .ok g') :
    g.Extends g' [(u, v)] := by
  obtain ⟨hu, hv, rfl⟩ := addArc_eq_ok.mp h
  have hnodes : (Graph.mk (g.vertices.map (vertexWith u v)) g.kinds).nodes = g.nodes := by
    simp [Graph.nodes, Function.comp_def]
  refine ⟨hnodes, ?_, ?_⟩
  · intro hg
    refine ⟨?_, ?_, ?_⟩
    · rw [hnodes]
      exact hg.nodup_nodes
    · intro w' hw'
      obtain ⟨w, hw, rfl⟩ := List.mem_map.mp hw'
      unfold vertexWith
      split
      · exact Vertex.nodup_predecessors_addPredecessor (hg.nodup_predecessors w hw) u
      · exact hg.nodup_predecessors w hw
    · intro w' hw' x hx
      obtain ⟨w, hw, rfl⟩ := List.mem_map.mp hw'
      rw [hnodes]
      rcases mem_predecessors_vertexWith.mp hx with ⟨rfl, -⟩ | hx
      · exact hu
      · exact hg.predecessors_subset w hw hx
  · intro x y
    simp only [Arc, List.mem_map, List.mem_singleton, Prod.mk.injEq]
    constructor
    · rintro ⟨w', ⟨w, hw, rfl⟩, hid, hx⟩
      rw [id_vertexWith] at hid
      rcases mem_predecessors_vertexWith.mp hx with ⟨rfl, hv'⟩ | hx
      · exact .inl ⟨rfl, hid.symm.trans hv'⟩
      · exact .inr ⟨w, hw, hid, hx⟩
    · rintro (⟨rfl, rfl⟩ | ⟨w, hw, hid, hx⟩)
      · obtain ⟨w, hw, hid⟩ := mem_nodes.mp hv
        exact ⟨_, ⟨w, hw, rfl⟩, by simpa using hid,
          mem_predecessors_vertexWith.mpr (.inl ⟨rfl, hid⟩)⟩
      · exact ⟨_, ⟨w, hw, rfl⟩, by simpa using hid, mem_predecessors_vertexWith.mpr (.inr hx)⟩

/-! ## Adding arcs in turn -/

theorem Extends.refl (g : Graph) : g.Extends g [] :=
  ⟨rfl, id, fun x y => by simp⟩

theorem Extends.trans {g g' g'' : Graph} {as bs : List (String × String)} (h : g.Extends g' as)
    (h' : g'.Extends g'' bs) : g.Extends g'' (as ++ bs) where
  nodes_eq := h'.nodes_eq.trans h.nodes_eq
  wellFormed := h'.wellFormed ∘ h.wellFormed
  arc_iff x y := by
    rw [h'.arc_iff, h.arc_iff, List.mem_append, or_left_comm, or_assoc]

theorem addArcs_cons (g : Graph) (a : String × String) (arcs : List (String × String)) :
    g.addArcs (a :: arcs) = (g.addArc a.1 a.2).bind fun g => g.addArcs arcs := rfl

theorem extends_addArcs {g g' : Graph} {arcs : List (String × String)}
    (h : g.addArcs arcs = .ok g') : g.Extends g' arcs := by
  induction arcs generalizing g with
  | nil =>
    obtain rfl : g = g' := by simpa [addArcs, pure, Except.pure] using h
    exact .refl g
  | cons a arcs ih =>
    rw [addArcs_cons] at h
    cases ha : g.addArc a.1 a.2 with
    | error f => rw [ha] at h; exact absurd h (by simp [Except.bind])
    | ok g₁ =>
      rw [ha] at h
      exact (extends_addArc ha).trans (ih h)

theorem exists_addArcs {g : Graph} {arcs : List (String × String)}
    (h : ∀ a ∈ arcs, a.1 ∈ g.nodes ∧ a.2 ∈ g.nodes) : ∃ g', g.addArcs arcs = .ok g' := by
  induction arcs generalizing g with
  | nil => exact ⟨g, rfl⟩
  | cons a arcs ih =>
    obtain ⟨ha, harcs⟩ := List.forall_mem_cons.mp h
    have h₁ := addArc_eq_ok.mpr ⟨ha.1, ha.2, rfl⟩
    have hnodes := (extends_addArc h₁).nodes_eq
    obtain ⟨g', hg'⟩ := ih (hnodes.symm ▸ harcs)
    exact ⟨g', by rw [addArcs_cons, h₁]; exact hg'⟩

/-- The graph that arcs between given nodes build, whatever order they are added in. -/
theorem exists_built {nodes : List String} {arcs : List (String × String)} (kinds : Table String)
    (hnodes : nodes.Nodup) (harcs : ∀ a ∈ arcs, a.1 ∈ nodes ∧ a.2 ∈ nodes) :
    ∃ g, (ofNodes nodes kinds).addArcs arcs = .ok g ∧ g.WellFormed ∧ g.nodes = nodes ∧
      g.Arc = fun u v => (u, v) ∈ arcs := by
  rw [← nodes_ofNodes nodes kinds] at harcs
  obtain ⟨g, hg⟩ := exists_addArcs harcs
  have hext := extends_addArcs hg
  refine ⟨g, hg, hext.wellFormed (wellFormed_ofNodes hnodes kinds), ?_, ?_⟩
  · rw [hext.nodes_eq, nodes_ofNodes]
  · funext u v
    rw [hext.arc_iff, eq_iff_iff, or_iff_left (not_arc_ofNodes nodes kinds u v)]

end Graph
end ProjectComposer
