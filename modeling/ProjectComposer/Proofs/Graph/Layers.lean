import Mathlib.Order.Bounds.Basic
import ProjectComposer.Graph.Plan
import ProjectComposer.Proofs.Graph.Arcs

/-!
Layers by longest way. After `n` rounds the placed nodes are those that no walk of `n` or more arcs
ends at: a vertex becomes ready once all its predecessors are placed, which is one round after the
last of them. So layer `n` holds the nodes whose longest path takes `n` arcs, in the order of the
graph, and nothing else about the graph matters. When no more vertices become ready, every vertex
left over has a predecessor that is left over, and these hold a cycle; without a cycle none is left.
-/
namespace ProjectComposer
set_option autoImplicit false

/-! ## Readiness -/

theorem Vertex.isReady_iff {placed : List String} {v : Vertex} (hplaced : placed.Nodup)
    (hv : v.predecessors.Nodup) : v.isReady placed = true ↔ ∀ u ∈ v.predecessors, u ∈ placed := by
  have hsub : placed.filter v.follows ⊆ v.predecessors := by
    intro u hu
    exact Vertex.follows_iff.mp (List.mem_filter.mp hu).2
  have hsubperm := (hplaced.filter v.follows).subperm hsub
  unfold Vertex.isReady Vertex.arrived
  rw [decide_eq_true_iff, List.countP_eq_length_filter]
  constructor
  · intro hlen u hu
    have hperm := hsubperm.perm_of_length_le hlen
    exact (List.mem_filter.mp (hperm.mem_iff.mpr hu)).1
  · intro hall
    refine (hv.subperm fun u hu => ?_).length_le
    exact List.mem_filter.mpr ⟨hall u hu, Vertex.follows_iff.mpr hu⟩

namespace Graph

/-! ## Walks to a node -/

section Levels
variable {V : Type} {arc : V → V → Prop}

/-- Every walk that ends at a node takes less than `n` arcs. -/
def EndsWithin (arc : V → V → Prop) (n : ℕ) (v : V) : Prop :=
  ∀ w : List V, (w ++ [v]).IsChain arc → w.length < n

theorem not_endsWithin_zero (v : V) : ¬EndsWithin arc 0 v := by
  intro h
  exact Nat.not_lt_zero _ (h [] (List.isChain_singleton v))

theorem EndsWithin.mono {m n : ℕ} {v : V} (h : EndsWithin arc m v) (hmn : m ≤ n) :
    EndsWithin arc n v :=
  fun w hw => (h w hw).trans_le hmn

theorem endsWithin_succ {n : ℕ} {v : V} :
    EndsWithin arc (n + 1) v ↔ ∀ u, arc u v → EndsWithin arc n u := by
  constructor
  · intro h u huv w hw
    have hlt := h (w ++ [u]) (isChain_concat_concat.mpr ⟨hw, huv⟩)
    rw [List.length_append, List.length_singleton] at hlt
    omega
  · intro h w hw
    rcases List.eq_nil_or_concat w with rfl | ⟨w, u, rfl⟩
    · exact Nat.succ_pos n
    · rw [List.concat_eq_append] at hw ⊢
      obtain ⟨hwu, huv⟩ := isChain_concat_concat.mp hw
      have hlt := h u huv w hwu
      rw [List.length_append, List.length_singleton]
      omega

/-- Walks of any length end at the nodes of a loop. -/
theorem IsLoop.not_endsWithin {c : List V} (hc : IsLoop arc c) (n : ℕ) {v : V} (hv : v ∈ c) :
    ¬EndsWithin arc n v := by
  induction n generalizing v with
  | zero => exact not_endsWithin_zero v
  | succ n ih =>
    intro h
    obtain ⟨u, hu, huv⟩ := hc.exists_pred hv
    exact ih hu (endsWithin_succ.mp h u huv)

/-! ## Levels -/

/-- The numbers of arcs that paths to a node take; a path visits no node twice. -/
def pathLengths (arc : V → V → Prop) (v : V) : Set ℕ :=
  {n | ∃ w : List V, (w ++ [v]).IsChain arc ∧ (w ++ [v]).Nodup ∧ w.length = n}

open Classical in
/-- The nodes that walks of `n` arcs end at, and none of more. -/
noncomputable def level (arc : V → V → Prop) (nodes : List V) (n : ℕ) : List V :=
  nodes.filter fun v => EndsWithin arc (n + 1) v ∧ ¬EndsWithin arc n v

theorem mem_level {nodes : List V} {n : ℕ} {v : V} :
    v ∈ level arc nodes n ↔ v ∈ nodes ∧ EndsWithin arc (n + 1) v ∧ ¬EndsWithin arc n v := by
  simp [level]

theorem level_sublist (nodes : List V) (n : ℕ) : (level arc nodes n).Sublist nodes :=
  List.filter_sublist

theorem isGreatest_pathLengths (hacyclic : ¬∃ c, IsCycle arc c) {nodes : List V} {n : ℕ} {v : V}
    (h : v ∈ level arc nodes n) : IsGreatest (pathLengths arc v) n := by
  obtain ⟨-, hbelow, habove⟩ := mem_level.mp h
  constructor
  · obtain ⟨w, hw⟩ := not_forall.mp habove
    obtain ⟨hchain, hlen⟩ := Classical.not_imp.mp hw
    have hlt := hbelow w hchain
    refine ⟨w, hchain, ?_, by omega⟩
    by_contra hdup
    obtain ⟨c, hc, -⟩ := exists_isLoop_of_not_nodup hchain hdup
    obtain ⟨d, hd, -⟩ := hc.exists_isCycle
    exact hacyclic ⟨d, hd⟩
  · rintro m ⟨w, hchain, -, rfl⟩
    exact Nat.lt_succ_iff.mp (hbelow w hchain)

theorem lt_of_arc {nodes : List V} {m n : ℕ} {u v : V} (hu : u ∈ level arc nodes m)
    (hv : v ∈ level arc nodes n) (huv : arc u v) : m < n := by
  obtain ⟨-, -, hu⟩ := mem_level.mp hu
  obtain ⟨-, hv, -⟩ := mem_level.mp hv
  by_contra hle
  exact hu ((endsWithin_succ.mp hv u huv).mono (not_lt.mp hle))

end Levels

/-! ## One round -/

/-- The placed nodes and the vertices waiting after `n` rounds. -/
structure Round (g : Graph) (n : ℕ) (placed : List String) (waiting : List Vertex) : Prop where
  nodup : placed.Nodup
  mem_placed : ∀ v, v ∈ placed ↔ v ∈ g.nodes ∧ EndsWithin g.Arc n v
  waiting_eq : waiting = g.vertices.filter fun w => w.id ∉ placed

namespace Round
variable {g : Graph} {n : ℕ} {placed : List String} {waiting : List Vertex}

theorem start (g : Graph) : Round g 0 [] g.vertices := by
  refine ⟨List.nodup_nil, ?_, ?_⟩
  · intro v
    simp [not_endsWithin_zero]
  · simp

theorem isReady_iff (hg : g.WellFormed) (r : Round g n placed waiting) {w : Vertex}
    (hw : w ∈ g.vertices) : w.isReady placed = true ↔ EndsWithin g.Arc (n + 1) w.id := by
  rw [Vertex.isReady_iff r.nodup (hg.nodup_predecessors w hw), endsWithin_succ]
  constructor
  · intro h u hu
    exact ((r.mem_placed u).mp (h u ((hg.arc_iff hw).mp hu))).2
  · intro h u hu
    exact (r.mem_placed u).mpr ⟨hg.predecessors_subset w hw hu, h u ((hg.arc_iff hw).mpr hu)⟩

theorem not_mem_placed_iff (r : Round g n placed waiting) {w : Vertex} (hw : w ∈ g.vertices) :
    w.id ∉ placed ↔ ¬EndsWithin g.Arc n w.id := by
  rw [r.mem_placed, not_and]
  exact ⟨fun h => h (id_mem_nodes hw), fun h _ => h⟩

/-- The vertices that become ready are those of the next level. -/
theorem idsOf_readyOf (hg : g.WellFormed) (r : Round g n placed waiting) :
    idsOf (readyOf placed waiting) = level g.Arc g.nodes n := by
  classical
  unfold idsOf readyOf level Graph.nodes
  rw [r.waiting_eq, List.filter_filter, List.filter_map]
  congr 1
  apply List.filter_congr
  intro w hw
  rw [Bool.eq_iff_iff]
  simp only [Function.comp_apply, Bool.and_eq_true, decide_eq_true_eq, r.isReady_iff hg hw,
    r.not_mem_placed_iff hw]

theorem next (hg : g.WellFormed) (r : Round g n placed waiting) :
    Round g (n + 1) (placed ++ idsOf (readyOf placed waiting)) (unreadyOf placed waiting) := by
  have hmem : ∀ v, v ∈ placed ++ idsOf (readyOf placed waiting) ↔
      v ∈ g.nodes ∧ EndsWithin g.Arc (n + 1) v := by
    intro v
    rw [r.idsOf_readyOf hg, List.mem_append, r.mem_placed, mem_level]
    constructor
    · rintro (⟨hv, h⟩ | ⟨hv, h, -⟩)
      · exact ⟨hv, h.mono n.le_succ⟩
      · exact ⟨hv, h⟩
    · rintro ⟨hv, h⟩
      by_cases hn : EndsWithin g.Arc n v
      · exact .inl ⟨hv, hn⟩
      · exact .inr ⟨hv, h, hn⟩
  refine ⟨?_, hmem, ?_⟩
  · rw [r.idsOf_readyOf hg]
    refine List.Nodup.append r.nodup ((level_sublist _ n).nodup hg.nodup_nodes) ?_
    intro v hv hv'
    exact (mem_level.mp hv').2.2 ((r.mem_placed v).mp hv).2
  · generalize placed ++ idsOf (readyOf placed waiting) = placed' at hmem
    unfold unreadyOf
    rw [r.waiting_eq, List.filter_filter]
    apply List.filter_congr
    intro w hw
    rw [Bool.eq_iff_iff]
    simp only [Bool.and_eq_true, Bool.not_eq_true', Bool.eq_false_iff, ne_eq, decide_eq_true_eq,
      r.isReady_iff hg hw, r.not_mem_placed_iff hw, hmem, id_mem_nodes hw, true_and]
    constructor
    · exact And.left
    · exact fun h => ⟨h, fun h' => h (h'.mono n.le_succ)⟩

/-- From any round on, the layers are the levels up to the first empty one. -/
theorem layersFrom_eq (hg : g.WellFormed) (r : Round g n placed waiting) :
    ∃ k, layersFrom placed waiting = (List.range k).map (fun j => level g.Arc g.nodes (n + j)) ∧
      (∀ j < k, level g.Arc g.nodes (n + j) ≠ []) ∧ level g.Arc g.nodes (n + k) = [] ∧
      ∃ rest, Round g (n + k) (placed ++ (layersFrom placed waiting).flatten) rest := by
  fun_induction layersFrom placed waiting generalizing n with
  | case1 placed waiting hnone =>
    have hlevel : level g.Arc g.nodes n = [] := by
      rw [← r.idsOf_readyOf hg, hnone]
      rfl
    exact ⟨0, rfl, by simp, hlevel, waiting, by simpa using r⟩
  | case2 placed waiting hsome ih =>
    obtain ⟨k, hlayers, hne, hempty, rest, hrest⟩ := ih (r.next hg)
    have hshift (j : ℕ) : n + 1 + j = n + (j + 1) := by omega
    refine ⟨k + 1, ?_, ?_, ?_, rest, ?_⟩
    · rw [hlayers, r.idsOf_readyOf hg, List.range_succ_eq_map, List.map_cons, List.map_map]
      simp only [hshift, Nat.add_zero, Function.comp_def, Nat.succ_eq_add_one]
    · intro j hj
      cases j with
      | zero =>
        rw [Nat.add_zero, ← r.idsOf_readyOf hg]
        simpa [idsOf] using hsome
      | succ j => exact hshift j ▸ hne j (by omega)
    · exact hshift k ▸ hempty
    · rw [List.flatten_cons, ← List.append_assoc]
      exact hshift k ▸ hrest

end Round

/-! ## All rounds -/

section Layers
variable {g : Graph}

theorem layers_eq_layersFrom (hg : g.WellFormed) : g.layers = layersFrom [] g.vertices := by
  have hdistinct := Vertex.distinct_eq_self hg.nodup_nodes
  rw [layersFrom]
  unfold layers
  rw [hdistinct]
  split
  · next h =>
    rw [if_pos (by simpa [idsOf] using h)]
  · next h =>
    rw [if_neg (fun h' => h (by rw [h']; rfl)), List.nil_append]

/-- The layers are the levels up to the first empty one, and hold the nodes that no longer walk ends
at. -/
theorem exists_layers_eq (hg : g.WellFormed) :
    ∃ k, g.layers = (List.range k).map (level g.Arc g.nodes) ∧
      (∀ j < k, level g.Arc g.nodes j ≠ []) ∧ level g.Arc g.nodes k = [] ∧
      g.layers.flatten.Nodup ∧
      ∀ v, v ∈ g.layers.flatten ↔ v ∈ g.nodes ∧ EndsWithin g.Arc k v := by
  obtain ⟨k, hlayers, hne, hempty, rest, r⟩ := (Round.start g).layersFrom_eq hg
  simp only [Nat.zero_add, List.nil_append] at hlayers hne hempty r
  rw [layers_eq_layersFrom hg]
  exact ⟨k, hlayers, hne, hempty, r.nodup, r.mem_placed⟩

theorem layers_congr {g' : Graph} (hg : g.WellFormed) (hg' : g'.WellFormed)
    (hnodes : g'.nodes = g.nodes) (harc : ∀ u v, g'.Arc u v ↔ g.Arc u v) :
    g'.layers = g.layers := by
  have harc' : g'.Arc = g.Arc := by
    funext u v
    exact propext (harc u v)
  obtain ⟨k, hk, hne, hempty, -⟩ := exists_layers_eq hg
  obtain ⟨k', hk', hne', hempty', -⟩ := exists_layers_eq hg'
  rw [hnodes, harc'] at hk' hne' hempty'
  have hle : k ≤ k' := not_lt.mp fun h => hne k' h hempty'
  have hle' : k' ≤ k := not_lt.mp fun h => hne' k h hempty
  rw [hk, hk', le_antisymm hle' hle]

/-- What is left over has predecessors that are left over, which makes a cycle. -/
theorem mem_flatten_layers (hg : g.WellFormed) (hacyclic : ¬∃ c, IsCycle g.Arc c) {v : String}
    (hv : v ∈ g.nodes) : v ∈ g.layers.flatten := by
  classical
  obtain ⟨k, -, -, hempty, -, hmem⟩ := exists_layers_eq hg
  by_contra hout
  let left := g.nodes.filter fun v => ¬EndsWithin g.Arc k v
  have hleft : ∀ v, v ∈ left ↔ v ∈ g.nodes ∧ ¬EndsWithin g.Arc k v := by
    intro v
    simp [left]
  have hne : left ≠ [] := by
    apply List.ne_nil_of_mem
    exact (hleft v).mpr ⟨hv, fun h => hout ((hmem v).mpr ⟨hv, h⟩)⟩
  have hpred : ∀ v ∈ left, ∃ u ∈ left, g.Arc u v := by
    intro v hv
    obtain ⟨hnode, hk⟩ := (hleft v).mp hv
    have hk' : ¬EndsWithin g.Arc (k + 1) v := by
      intro h
      exact List.not_mem_nil (hempty ▸ mem_level.mpr ⟨hnode, h, hk⟩)
    rw [endsWithin_succ, not_forall] at hk'
    obtain ⟨u, hu⟩ := hk'
    obtain ⟨huv, hu⟩ := Classical.not_imp.mp hu
    exact ⟨u, (hleft u).mpr ⟨hg.source_mem huv, hu⟩, huv⟩
  obtain ⟨c, hc, -⟩ := exists_isCycle_of_forall_exists_pred hne hpred
  exact hacyclic ⟨c, hc⟩

theorem IsLoop.not_mem_flatten_layers (hg : g.WellFormed) {c : List String} (hc : IsLoop g.Arc c)
    {v : String} (hv : v ∈ c) : v ∉ g.layers.flatten := by
  obtain ⟨k, -, -, -, -, hmem⟩ := exists_layers_eq hg
  intro h
  exact hc.not_endsWithin k hv ((hmem v).mp h).2

theorem perm_flatten_layers (hg : g.WellFormed) :
    g.layers.flatten.Perm g.nodes ↔ g.layers.flatten.length = g.vertices.length := by
  have hlen : g.nodes.length = g.vertices.length := List.length_map _
  obtain ⟨k, -, -, -, hnodup, hmem⟩ := exists_layers_eq hg
  rw [← hlen]
  constructor
  · exact List.Perm.length_eq
  · intro h
    have hsub : g.layers.flatten ⊆ g.nodes := fun v hv => ((hmem v).mp hv).1
    exact (hnodup.subperm hsub).perm_of_length_le h.ge

end Layers

/-! ## Plans -/

theorem plan_eq_ok {g : Graph} {p : Plan} (hg : g.WellFormed) :
    g.plan = .ok p ↔ p = ⟨g.layers⟩ ∧ g.layers.flatten.Perm g.nodes := by
  rw [perm_flatten_layers hg]
  unfold plan Plan.order
  dsimp only
  split
  · next h =>
    rw [Except.ok.injEq, and_iff_left h, eq_comm]
  · next h =>
    refine iff_of_false ?_ fun h' => h h'.2
    cases g.shortestCycle (idsOf (unreadyOf g.layers.flatten g.vertices)) <;>
      simp [bind, Except.bind]

/-- A plan exists where there is no cycle, and nowhere else. -/
theorem exists_plan_iff {g : Graph} (hg : g.WellFormed) :
    (∃ p, g.plan = .ok p) ↔ ¬∃ c, IsCycle g.Arc c := by
  obtain ⟨k, -, -, -, hnodup, hmem⟩ := exists_layers_eq hg
  constructor
  · rintro ⟨p, hp⟩ ⟨c, hc⟩
    obtain ⟨v, hv⟩ := List.exists_mem_of_ne_nil c hc.2.1
    obtain ⟨u, -, huv⟩ := hc.2.exists_pred hv
    have hperm := ((plan_eq_ok hg).mp hp).2
    exact hc.2.not_mem_flatten_layers hg hv (hperm.mem_iff.mpr huv.target_mem)
  · intro hacyclic
    refine ⟨⟨g.layers⟩, (plan_eq_ok hg).mpr ⟨rfl, ?_⟩⟩
    refine (List.perm_ext_iff_of_nodup hnodup hg.nodup_nodes).mpr fun v => ?_
    exact ⟨fun hv => ((hmem v).mp hv).1, mem_flatten_layers hg hacyclic⟩

/-- A partition of nodes into layers by longest path, each layer in the order of the nodes. -/
structure IsLayering (arc : String → String → Prop) (nodes : List String)
    (layers : List (List String)) : Prop where
  ne_nil : ∀ layer ∈ layers, layer ≠ []
  perm : layers.flatten.Perm nodes
  isGreatest : ∀ n (h : n < layers.length), ∀ v ∈ layers[n], IsGreatest (pathLengths arc v) n
  forward : ∀ m n (hm : m < layers.length) (hn : n < layers.length),
    ∀ u ∈ layers[m], ∀ v ∈ layers[n], arc u v → m < n
  sublist : ∀ layer ∈ layers, layer.Sublist nodes

theorem isLayering_layers {g : Graph} {p : Plan} (hg : g.WellFormed) (hp : g.plan = .ok p) :
    IsLayering g.Arc g.nodes p.layers := by
  have hacyclic := (exists_plan_iff hg).mp ⟨p, hp⟩
  obtain ⟨rfl, hperm⟩ := (plan_eq_ok hg).mp hp
  obtain ⟨k, hlayers, hne, -⟩ := exists_layers_eq hg
  have hget (n : ℕ) (h : n < g.layers.length) : g.layers[n] = level g.Arc g.nodes n := by
    simp only [hlayers, List.getElem_map, List.getElem_range]
  refine ⟨?_, hperm, ?_, ?_, ?_⟩
  · intro layer hlayer
    rw [hlayers] at hlayer
    obtain ⟨n, hn, rfl⟩ := List.mem_map.mp hlayer
    exact hne n (List.mem_range.mp hn)
  · intro n h v hv
    exact isGreatest_pathLengths hacyclic (hget n h ▸ hv)
  · intro m n hm hn u hu v hv huv
    exact lt_of_arc (hget m hm ▸ hu) (hget n hn ▸ hv) huv
  · intro layer hlayer
    rw [hlayers] at hlayer
    obtain ⟨n, -, rfl⟩ := List.mem_map.mp hlayer
    exact level_sublist _ n

/-- The plan of the graph that given arcs build: it exists unless the arcs close a cycle, layers the
nodes by longest path, and does not depend on the order or repetition of the arcs. -/
theorem plan_layering {nodes : List String} {arcs : List (String × String)} (kinds : Table String)
    (hnodes : nodes.Nodup) (harcs : ∀ a ∈ arcs, a.1 ∈ nodes ∧ a.2 ∈ nodes) :
    ∃ g, (ofNodes nodes kinds).addArcs arcs = .ok g ∧
      ((∃ p, g.plan = .ok p) ↔ ¬∃ c, IsCycle (fun u v => (u, v) ∈ arcs) c) ∧
      ∀ p, g.plan = .ok p → IsLayering (fun u v => (u, v) ∈ arcs) nodes p.layers ∧
        ∀ arcs', (∀ a, a ∈ arcs' ↔ a ∈ arcs) →
          ∃ g', (ofNodes nodes kinds).addArcs arcs' = .ok g' ∧ g'.plan = .ok p := by
  obtain ⟨g, hadd, hg, rfl, hrel⟩ := exists_built kinds hnodes harcs
  refine ⟨g, hadd, hrel ▸ exists_plan_iff hg, ?_⟩
  intro p hp
  refine ⟨hrel ▸ isLayering_layers hg hp, ?_⟩
  intro arcs' hmem
  have hends : ∀ a ∈ arcs', a.1 ∈ g.nodes ∧ a.2 ∈ g.nodes := fun a ha => harcs a ((hmem a).mp ha)
  obtain ⟨g', hadd', hg', hnodes', hrel'⟩ := exists_built kinds hnodes hends
  have hlayers := layers_congr hg hg' hnodes' fun u v => by
    rw [hrel', hrel]
    exact hmem (u, v)
  obtain ⟨rfl, hperm⟩ := (plan_eq_ok hg).mp hp
  refine ⟨g', hadd', (plan_eq_ok hg').mpr ?_⟩
  rw [hlayers, hnodes']
  exact ⟨rfl, hperm⟩

end Graph
end ProjectComposer
