import ProjectComposer.Proofs.Graph.Links
import ProjectComposer.Proofs.Validation.DependencyGraph
import ProjectComposer.Validation.Links

/-!
Arcs kept at both ends. Building them arc by arc fails exactly where the graph of a blueprint is
missing, and with the same error: only a need can fail, never an arc. What is built otherwise holds
the arcs of that graph in both tables, so each of them is the converse of the other.
-/
namespace ProjectComposer
set_option autoImplicit false

namespace Links

/-- An arc leads from one node to another, by the table of targets. -/
def Leads (l : Links) (u v : String) : Prop :=
  ∃ targets, l.successors.get? u = some targets ∧ v ∈ targets

/-- An arc comes to a node from another, by the table of sources. -/
def ComesFrom (l : Links) (v u : String) : Prop :=
  ∃ sources, l.predecessors.get? v = some sources ∧ u ∈ sources

namespace Holds
variable {l : Links} {arc : String → String → Prop} {u v : String}

theorem leads_iff (h : l.Holds arc) : l.Leads u v ↔ arc u v := by
  constructor
  · rintro ⟨targets, htargets, hv⟩
    exact (h.successors.mem_iff u targets htargets v).mp hv
  · intro harc
    obtain ⟨targets, htargets, -, hmem⟩ := h.successors.exists_entry (h.ends u v harc).1
    exact ⟨targets, Table.entry_eq_ok.mp htargets, (hmem v).mpr harc⟩

theorem comesFrom_iff (h : l.Holds arc) : l.ComesFrom v u ↔ arc u v := by
  constructor
  · rintro ⟨sources, hsources, hu⟩
    exact (h.predecessors.mem_iff v sources hsources u).mp hu
  · intro harc
    obtain ⟨sources, hsources, -, hmem⟩ := h.predecessors.exists_entry (h.ends u v harc).2
    exact ⟨sources, Table.entry_eq_ok.mp hsources, (hmem u).mpr harc⟩

/-- Sorting all arcs gives the list of arcs of a graph that keeps them once. -/
theorem sortedArcs_eq_ok {g : Graph} (hg : g.WellFormed) (hnodes : l.nodes = g.nodes)
    (h : l.Holds g.Arc) : l.sortedArcs = .ok g.sortedArcs := by
  have hnodup : l.nodes.Nodup := hnodes.symm ▸ hg.nodup_nodes
  have hkeys : l.successors.keys.Nodup := h.successors.keys_eq.symm ▸ hnodup
  have hmem : ∀ a, a ∈ l.successors.flatMap (fun e => e.2.map fun v => (e.1, v)) ↔
      g.Arc a.1 a.2 := by
    intro a
    rw [← h.leads_iff]
    simp only [List.mem_flatMap, List.mem_map, Leads, Table.get?_eq_some_iff hkeys]
    constructor
    · rintro ⟨e, he, v, hv, rfl⟩
      exact ⟨e.2, he, hv⟩
    · rintro ⟨targets, he, hv⟩
      exact ⟨_, he, a.2, hv, rfl⟩
  have hlisted : (l.successors.flatMap fun e => e.2.map fun v => (e.1, v)).Nodup := by
    refine List.nodup_flatMap.mpr ⟨fun e he => ?_, ?_⟩
    · have hset := h.successors.nodup e.1 e.2 ((Table.get?_eq_some_iff hkeys).mpr he)
      exact hset.map fun v w hvw => (Prod.mk.inj hvw).2
    · refine (List.pairwise_map.mp hkeys).imp fun {e e'} hne a ha ha' => ?_
      obtain ⟨v, -, rfl⟩ := List.mem_map.mp ha
      obtain ⟨w, -, hw⟩ := List.mem_map.mp ha'
      exact hne (Prod.mk.inj hw).1.symm
  refine sortedBy_eq_ok (fun a => toLex (l.nodes.idxOf a.1, l.nodes.idxOf a.2)) ?_ ?_ ?_
  · intro a ha
    obtain ⟨hu, hv⟩ := h.ends a.1 a.2 ((hmem a).mp ha)
    rw [entry_places hnodup hu, entry_places hnodup hv]
    rfl
  · refine (List.perm_ext_iff_of_nodup hg.nodup_sortedArcs hlisted).mpr fun a => ?_
    rw [hmem, ← hg.mem_sortedArcs_iff]
  · rw [hnodes]
    exact hg.pairwise_sortedArcs

end Holds
end Links

namespace Blueprint
variable {b : Blueprint} {r : Registry}

/-! ## Building -/

theorem linkNode_eq {l : Links} {arc : String → String → Prop} (hl : l.nodes = b.nodeIds)
    (h : l.Holds arc) {n : Node} (hn : n ∈ b.nodes) :
    b.linkNode r l n = b.nodeArcs r n >>= l.addArcs := by
  unfold linkNode nodeArcs
  cases hp : r.find n.kind with
  | error f => rfl
  | ok p =>
    have hends : ∀ need ∈ p.requiredNeeds, ∀ arcs, b.needArcs n p need = .ok arcs →
        ∀ a ∈ arcs, a.1 ∈ b.nodeIds ∧ a.2 ∈ b.nodeIds := by
      intro need _ arcs harcs a ha
      obtain ⟨m, hm, -, -, rfl⟩ := (mem_needArcs harcs).mp ha
      exact ⟨List.mem_map_of_mem hm, List.mem_map_of_mem hn⟩
    have hfold := Links.foldlM_addArcs (b.linkNeed n p) hl h
      (fun l arc _ _ need _ => rfl) hends
    change p.requiredNeeds.foldlM (b.linkNeed n p) l =
      (p.requiredNeeds.mapM (b.needArcs n p) >>= _) >>= l.addArcs
    rw [hfold, bind_assoc]
    rfl

theorem links_of_findings (h : b.findings r = []) : b.links r = b.nodes.mapM (b.nodeArcs r) >>=
    fun arcs => (Links.ofNodes b.nodeIds (.ofPairs (b.nodes.map fun n => (n.id, n.kind)))).addArcs
      (arcs.flatten ++ b.edgeArcs) := by
  have hnodes := nodup_nodeIds h
  obtain ⟨l, hl, hids, -, hholds⟩ := Links.exists_holds
    (.ofPairs (b.nodes.map fun n => (n.id, n.kind))) hnodes
    (fun a ha => absurd ha List.not_mem_nil)
  obtain rfl := Except.ok.inj hl
  have hends : ∀ n ∈ b.nodes, ∀ arcs, b.nodeArcs r n = .ok arcs →
      ∀ a ∈ arcs, a.1 ∈ b.nodeIds ∧ a.2 ∈ b.nodeIds := by
    intro n hn arcs harcs a ha
    obtain ⟨p, -, need, -, m, hm, -, -, rfl⟩ := (mem_nodeArcs harcs).mp ha
    exact ⟨List.mem_map_of_mem hm, List.mem_map_of_mem hn⟩
  have hfold := Links.foldlM_addArcs (b.linkNode r) hids hholds
    (fun l arc hl hholds n hn => linkNode_eq hl hholds hn) hends
  unfold links
  rw [validateStructure_eq_ok (u := ()) |>.mpr h]
  change (b.nodes.foldlM (b.linkNode r) _ >>= _) = _
  rw [hfold, bind_assoc]
  simp only [Links.addArcs_append]

/-- The arcs of a blueprint are missing or found with either way of keeping them. -/
theorem links_graph :
    (∃ f, b.links r = .error f ∧ b.graph r = .error f) ∨
      ∃ l g, b.links r = .ok l ∧ b.graph r = .ok g ∧ l.nodes = g.nodes ∧ l.Holds g.Arc := by
  cases hstructure : b.validateStructure r with
  | error f =>
    refine .inl ⟨.fault f, ?_, ?_⟩
    · rw [links, hstructure]
      rfl
    · rw [graph, hstructure]
      rfl
  | ok u =>
    have h := validateStructure_eq_ok.mp hstructure
    rw [links_of_findings h, graph_of_findings h]
    unfold connect
    cases harcs : b.nodes.mapM (b.nodeArcs r) with
    | error f => exact .inl ⟨f, rfl, rfl⟩
    | ok arcs =>
      have hends : ∀ a ∈ arcs.flatten ++ b.edgeArcs, a.1 ∈ b.nodeIds ∧ a.2 ∈ b.nodeIds :=
        List.forall_mem_append.mpr ⟨nodes_mem_of_nodeArcs harcs, nodes_mem_of_edgeArcs h⟩
      obtain ⟨l, hl, hnodes, -, hholds⟩ := Links.exists_holds
        (.ofPairs (b.nodes.map fun n => (n.id, n.kind))) (nodup_nodeIds h) hends
      obtain ⟨g, hg, -, hnodes', hrel⟩ := Graph.exists_built
        (.ofPairs (b.nodes.map fun n => (n.id, n.kind))) (nodup_nodeIds h) hends
      exact .inr ⟨l, g, hl, hg, hnodes.trans hnodes'.symm, hrel ▸ hholds⟩

theorem links_eq_error {f : Failure} : b.links r = .error f ↔ b.graph r = .error f := by
  rcases links_graph (b := b) (r := r) with ⟨f', hl, hg⟩ | ⟨l, g, hl, hg, -⟩
  · simp only [hl, hg, Except.error.injEq]
  · simp [hl, hg]

theorem links_eq_ok {l : Links} (hl : b.links r = .ok l) :
    ∃ g, b.graph r = .ok g ∧ l.nodes = g.nodes ∧ l.Holds g.Arc := by
  rcases links_graph (b := b) (r := r) with ⟨f, hf, -⟩ | ⟨l', g, hl', hg, hnodes, hholds⟩
  · cases hl.symm.trans hf
  · obtain rfl := Except.ok.inj (hl.symm.trans hl')
    exact ⟨g, hg, hnodes, hholds⟩

/-! ## Wiring -/

/-- Where the structure is valid, building fails exactly if some node requires a kind that no node
has, and the error names the first such node with its first such need. Otherwise the nodes stand in
order, an arc leads from one node to another for an edge or a required need between the two, the
table of sources is the converse of the table of targets, and the sorted list holds every arc once,
by the places of both ends. -/
theorem links_reflect_wiring (h : b.validateStructure r = .ok ()) :
    (∀ f, b.links r = .error f ↔ ∃ n p need, b.FirstMissing r n p need ∧
      f = .fault (.ofKind (.missingDependency need.kind n.id (some p.id)))) ∧
    ((∃ f, b.links r = .error f) ↔ ∃ n ∈ b.nodes, ∃ p, r.get? n.kind = some p ∧
      ∃ need ∈ p.requiredNeeds, ∀ m ∈ b.nodes, m.kind ≠ need.kind) ∧
    ∀ l, b.links r = .ok l → l.nodes = b.nodes.map (·.id) ∧
      l.successors.keys = l.nodes ∧ l.predecessors.keys = l.nodes ∧
      (∀ u v, l.Leads u v ↔ u ≠ v ∧ (b.Joins u v ∨ b.RequiresKindOf r v u)) ∧
      (∀ u v, l.ComesFrom v u ↔ l.Leads u v) ∧
      (∀ u, ¬l.Leads u u) ∧
      ∃ arcs, l.sortedArcs = .ok arcs ∧ (∀ u v, (u, v) ∈ arcs ↔ l.Leads u v) ∧ arcs.Nodup ∧
        arcs.Pairwise fun a c => Prod.Lex (· < ·) (· < ·)
          (l.nodes.idxOf a.1, l.nodes.idxOf a.2) (l.nodes.idxOf c.1, l.nodes.idxOf c.2) := by
  have hfindings := validateStructure_eq_ok.mp h
  refine ⟨fun f => links_eq_error.trans (graph_eq_error hfindings), ?_, fun l hl => ?_⟩
  · simp only [links_eq_error]
    have hfails : (∃ f, b.graph r = .error f) ↔ ¬∃ g, b.graph r = .ok g := by
      cases b.graph r with
      | error f => simp
      | ok g => simp
    rw [hfails, exists_graph_iff hfindings]
    simp only [Meets, HasKind, not_forall, not_exists, not_and, exists_prop, ne_eq]
  · obtain ⟨g, hg, hnodes, hholds⟩ := links_eq_ok hl
    have hwell := wellFormed_graph hg
    have hleads (u v : String) :
        l.Leads u v ↔ u ≠ v ∧ (b.Joins u v ∨ b.RequiresKindOf r v u) := by
      rw [hholds.leads_iff, arc_iff hg, requires_iff, and_or_left]
      exact or_congr_left (iff_and_self.mpr (Joins.ne hfindings))
    refine ⟨hnodes.trans (nodes_connect (graph_eq_ok.mp hg).2), hholds.successors.keys_eq,
      hholds.predecessors.keys_eq, hleads, fun u v => ?_, fun u hu => ((hleads u u).mp hu).1 rfl,
      g.sortedArcs, hholds.sortedArcs_eq_ok hwell hnodes, fun u v => ?_, hwell.nodup_sortedArcs, ?_⟩
    · rw [hholds.comesFrom_iff, hholds.leads_iff]
    · rw [hwell.mem_sortedArcs_iff, hholds.leads_iff]
    · rw [hnodes]
      exact hwell.pairwise_sortedArcs

/-- Two nodes of one kind require each other; one of them is wired to a third node, twice, whose
need for the same kind is met by both. -/
theorem links_reflect_wiring_mutual :
    let peer : Plugin := {
      card := { id := "peer", name := "Peer", field := .app }
      ports := [⟨"out", "Out", .output, .any, false⟩]
      needs := [{ kind := "peer", required := true }]
      generate := fun _ _ => { result := .ok (.output {}) } }
    let hub : Plugin := {
      card := { id := "hub", name := "Hub", field := .app }
      ports := [⟨"in", "In", .input, .any, true⟩]
      needs := [{ kind := "peer", required := true }, { kind := "guest" }]
      generate := fun _ _ => { result := .ok (.output {}) } }
    let r : Registry := .ofPlugins [peer, hub]
    let b : Blueprint := {
      id := "b"
      nodes := [⟨"hub", "hub", [], none⟩, ⟨"a", "peer", [], none⟩, ⟨"z", "peer", [], none⟩]
      edges := [⟨"e", ⟨"a", "out"⟩, ⟨"hub", "in"⟩⟩, ⟨"f", ⟨"a", "out"⟩, ⟨"hub", "in"⟩⟩] }
    b.validateStructure r = .ok () ∧ (∀ f, b.links r ≠ .error f) ∧
      ∃ l, b.links r = .ok l ∧
        l.successors = [("hub", []), ("a", ["z", "hub"]), ("z", ["a", "hub"])] ∧
        l.predecessors = [("hub", ["z", "a"]), ("a", ["z"]), ("z", ["a"])] ∧
        l.Leads "a" "z" ∧ l.ComesFrom "z" "a" ∧ ¬l.Leads "a" "a" := by
  intro peer hub r b
  have hvalid : b.validateStructure r = .ok () := by
    decide +kernel
  have hbuilt : (b.links r).toOption.map (fun l => (l.successors, l.predecessors)) =
      some ([("hub", []), ("a", ["z", "hub"]), ("z", ["a", "hub"])],
        [("hub", ["z", "a"]), ("a", ["z"]), ("z", ["a"])]) := by
    decide +kernel
  obtain ⟨l, hl, htables⟩ := Option.map_eq_some_iff.mp hbuilt
  rw [toOption_eq_some] at hl
  obtain ⟨hsuccessors, hpredecessors⟩ := Prod.mk.inj htables
  obtain ⟨-, -, hlinks⟩ := links_reflect_wiring hvalid
  obtain ⟨-, -, -, -, hconverse, hirreflexive, -⟩ := hlinks l hl
  have hleads : l.Leads "a" "z" := ⟨["z", "hub"], by rw [hsuccessors]; rfl, by simp⟩
  exact ⟨hvalid, by simp [hl], l, hl, hsuccessors, hpredecessors, hleads,
    (hconverse _ _).mpr hleads, hirreflexive _⟩

/-- Of the two kinds that are missing, the first one that the first node requires is named. -/
example :
    let asking (id : String) (kinds : List String) : Plugin := {
      card := { id := id, name := id, field := .app }
      needs := kinds.map fun kind => { kind := kind, required := true }
      generate := fun _ _ => { result := .ok (.output {}) } }
    let r : Registry := .ofPlugins [asking "free" [], asking "map" ["free", "ink", "paper"]]
    let b : Blueprint := {
      id := "b"
      nodes := [⟨"f", "free", [], none⟩, ⟨"m", "map", [], none⟩, ⟨"n", "map", [], none⟩] }
    b.links r = .error (.fault (.ofKind (.missingDependency "ink" "m" (some "map")))) := by
  decide +kernel

end Blueprint
end ProjectComposer
