import ProjectComposer.Proofs.Graph.Layers
import ProjectComposer.Proofs.Graph.Search

/-!
Where no plan exists, the fault names a shortest cycle of the graph, and of several the first by the
places of their nodes. Every cycle lies among the vertices left over, whose nodes are tried as
starts in the order of the graph. A later start replaces the best loop only by a shorter one: a loop
of the same length has a later first node. A loop of two nodes cannot be improved on, for no arc
leads from a node to itself.
-/
namespace ProjectComposer.Graph
set_option autoImplicit false

/-! ## Starts -/

/-- The best loop from the starts tried so far: the first one among the shortest. -/
def IsBest (g : Graph) (inside tried : List String) : Option (List String) → Prop
  | some c => (∃ s ∈ tried, IsFirstLoop g inside s c) ∧
      ∀ s ∈ tried, ∀ d, LoopFrom g.Arc inside s d →
        c.length ≤ d.length ∧ (d.length = c.length → places g.nodes c ≤ places g.nodes d)
  | none => ∀ s ∈ tried, ∀ d, ¬LoopFrom g.Arc inside s d

section Starts
variable {g : Graph} {inside tried more : List String} {c : List String}

theorem places_lt_of_head? {nodes c d : List String} {s t : String} (hc : c.head? = some s)
    (hd : d.head? = some t) (h : nodes.idxOf s < nodes.idxOf t) :
    places nodes c < places nodes d := by
  obtain ⟨c, rfl⟩ := List.head?_eq_some_iff.mp hc
  obtain ⟨d, rfl⟩ := List.head?_eq_some_iff.mp hd
  exact List.cons_lt_cons_iff.mpr (.inl h)

/-- Later starts do not matter where their loops are not shorter. -/
theorem IsBest.append (h : IsBest g inside tried (some c))
    (hlater : ∀ s ∈ tried, ∀ t ∈ more, g.nodes.idxOf s < g.nodes.idxOf t)
    (hlen : ∀ t ∈ more, ∀ d, LoopFrom g.Arc inside t d → c.length ≤ d.length) :
    IsBest g inside (tried ++ more) (some c) := by
  obtain ⟨⟨s, hs, hfirst⟩, hbest⟩ := h
  refine ⟨⟨s, List.mem_append_left more hs, hfirst⟩, ?_⟩
  intro t ht d hd
  rcases List.mem_append.mp ht with ht | ht
  · exact hbest t ht d hd
  · refine ⟨hlen t ht d hd, fun _ => le_of_lt ?_⟩
    exact places_lt_of_head? hfirst.loopFrom.head?_eq hd.head?_eq (hlater s hs t ht)

theorem isBest_start (g : Graph) (inside : List String) : IsBest g inside [] none := by
  intro s hs
  exact absurd hs List.not_mem_nil

theorem IsBest.next {best new : Option (List String)} {s : String}
    (h : IsBest g inside tried best) (hnew : Settles g inside s new)
    (hlater : ∀ t ∈ tried, g.nodes.idxOf t < g.nodes.idxOf s) :
    IsBest g inside (tried ++ [s]) (shorter best new) := by
  have hmem : ∀ t, t ∈ tried ++ [s] ↔ t ∈ tried ∨ t = s := by simp
  have hlater' : ∀ t ∈ tried, ∀ x ∈ [s], g.nodes.idxOf t < g.nodes.idxOf x := by
    intro t ht x hx
    exact List.mem_singleton.mp hx ▸ hlater t ht
  cases best with
  | none =>
    cases new with
    | none =>
      intro t ht d hd
      rcases (hmem t).mp ht with ht | rfl
      · exact h t ht d hd
      · exact hnew d hd
    | some c =>
      refine ⟨⟨s, (hmem s).mpr (.inr rfl), hnew⟩, ?_⟩
      intro t ht d hd
      rcases (hmem t).mp ht with ht | rfl
      · exact absurd hd (h t ht d)
      · exact ⟨hnew.length_le d hd, hnew.places_le d hd⟩
  | some b =>
    cases new with
    | none =>
      refine IsBest.append h hlater' ?_
      intro t ht d hd
      exact absurd hd (List.mem_singleton.mp ht ▸ hnew d)
    | some c =>
      unfold shorter
      dsimp only
      split
      · next hlt =>
        refine ⟨⟨s, (hmem s).mpr (.inr rfl), hnew⟩, ?_⟩
        intro t ht d hd
        rcases (hmem t).mp ht with ht | rfl
        · have hle := (h.2 t ht d hd).1
          exact ⟨by omega, fun heq => by omega⟩
        · exact ⟨hnew.length_le d hd, hnew.places_le d hd⟩
      · next hge =>
        refine IsBest.append h hlater' ?_
        intro t ht d hd
        obtain rfl := List.mem_singleton.mp ht
        exact (not_lt.mp hge).trans (hnew.length_le d hd)

theorem LoopFrom.two_le_length {s : String} {d : List String} (h : LoopFrom g.Arc inside s d)
    (hself : ∀ v, ¬g.Arc v v) : 2 ≤ d.length := by
  match d, h.isLoop with
  | [], hloop => exact absurd rfl hloop.1
  | [v], hloop => exact absurd (List.isChain_pair.mp hloop.2) (hself v)
  | _ :: _ :: _, _ => exact Nat.le_add_left 2 _

/-- Trying starts in the order of the graph ends with the best loop from all of them. -/
theorem isBest_bestCycle (hg : g.WellFormed) (hself : ∀ v, ¬g.Arc v v)
    {best : Option (List String)} (h : IsBest g inside tried best)
    (hsub : (tried ++ more).Sublist g.nodes) (hin : more ⊆ inside) :
    ∃ best', g.bestCycle inside more best = .ok best' ∧ IsBest g inside (tried ++ more) best' := by
  induction more generalizing tried best with
  | nil => exact ⟨best, rfl, by rwa [List.append_nil]⟩
  | cons s more ih =>
    have hplaces := pairwise_idxOf hg.nodup_nodes hsub
    obtain ⟨hs, hmore⟩ := List.cons_subset.mp hin
    have hnode : s ∈ g.nodes := hsub.subset (List.mem_append_right tried List.mem_cons_self)
    obtain ⟨start, hvertex, rfl, hstart⟩ := exists_find?_eq_some hnode
    have hlater : ∀ t ∈ tried, ∀ x ∈ start.id :: more, g.nodes.idxOf t < g.nodes.idxOf x :=
      (List.pairwise_append.mp hplaces).2.2
    have hnext := h.next (settles_cycleThrough hg hvertex hs)
      fun t ht => hlater t ht _ List.mem_cons_self
    have hassoc : tried ++ [start.id] ++ more = tried ++ start.id :: more := by simp
    rw [bestCycle, hstart, ← hassoc]
    dsimp only
    split
    · next hshort =>
      refine ⟨_, rfl, ?_⟩
      obtain ⟨c, hc, hlen⟩ := (Option.any_eq_true _ _).mp hshort
      rw [hc] at hnext ⊢
      refine hnext.append ?_ ?_
      · rw [← hassoc] at hplaces
        exact (List.pairwise_append.mp hplaces).2.2
      · intro t _ d hd
        exact (of_decide_eq_true hlen).le.trans (hd.two_le_length hself)
    · exact ih hnext (hassoc ▸ hsub) hmore

end Starts

/-! ## Vertices left over -/

/-- The nodes of the vertices that the layers leave over. -/
def leftOver (g : Graph) : List String :=
  idsOf (unreadyOf g.layers.flatten g.vertices)

theorem leftOver_sublist (g : Graph) : g.leftOver.Sublist g.nodes :=
  List.filter_sublist.map _

theorem IsLoop.subset_leftOver {g : Graph} (hg : g.WellFormed) {c : List String}
    (hc : IsLoop g.Arc c) : c ⊆ g.leftOver := by
  intro v hv
  obtain ⟨u, hu, huv⟩ := hc.exists_pred hv
  obtain ⟨w, hw, rfl, hpred⟩ := huv
  obtain ⟨k, -, -, -, hnodup, -⟩ := exists_layers_eq hg
  refine List.mem_map_of_mem (List.mem_filter.mpr ⟨hw, ?_⟩)
  rw [Bool.not_eq_true', Bool.eq_false_iff, ne_eq,
    Vertex.isReady_iff hnodup (hg.nodup_predecessors w hw)]
  exact fun h => hc.not_mem_flatten_layers hg hu (h u hpred)

theorem IsLoop.loopFrom_leftOver {g : Graph} (hg : g.WellFormed) {c : List String}
    (hc : IsLoop g.Arc c) : ∃ s ∈ g.leftOver, LoopFrom g.Arc g.leftOver s c := by
  have hsub := hc.subset_leftOver hg
  obtain ⟨s, rest, rfl⟩ := List.exists_cons_of_ne_nil hc.1
  exact ⟨s, hsub List.mem_cons_self, hc, rfl, hsub⟩

/-! ## Faults -/

/-- The first of the shortest cycles, by the places of its nodes; every rotation counts. -/
structure IsFirstCycle (arc : String → String → Prop) (nodes c : List String) : Prop where
  isCycle : IsCycle arc c
  length_le : ∀ d, IsCycle arc d → c.length ≤ d.length
  places_le : ∀ d, IsCycle arc d → d.length = c.length → places nodes c ≤ places nodes d

theorem exists_bestCycle {g : Graph} (hg : g.WellFormed) (hself : ∀ v, ¬g.Arc v v)
    (hcyclic : ∃ c, IsCycle g.Arc c) :
    ∃ c, g.bestCycle g.leftOver g.leftOver none = .ok (some c) ∧ IsFirstCycle g.Arc g.nodes c := by
  obtain ⟨best, hrun, hbest⟩ := isBest_bestCycle hg hself (isBest_start g g.leftOver)
    (List.nil_append g.leftOver ▸ g.leftOver_sublist) (List.Subset.refl g.leftOver)
  rw [List.nil_append] at hbest
  cases best with
  | none =>
    obtain ⟨d, hd⟩ := hcyclic
    obtain ⟨s, hs, hfrom⟩ := hd.2.loopFrom_leftOver hg
    exact absurd hfrom (hbest s hs d)
  | some c =>
    obtain ⟨⟨_, _, hfirst⟩, hall⟩ := hbest
    refine ⟨c, hrun, hfirst.isCycle, ?_, ?_⟩
    · intro d hd
      obtain ⟨s, hs, hfrom⟩ := hd.2.loopFrom_leftOver hg
      exact (hall s hs d hfrom).1
    · intro d hd
      obtain ⟨s, hs, hfrom⟩ := hd.2.loopFrom_leftOver hg
      exact (hall s hs d hfrom).2

theorem plan_eq_error {g : Graph} (hg : g.WellFormed) (hcyclic : ∃ c, IsCycle g.Arc c)
    {c : List String} (hc : g.shortestCycle g.leftOver = .ok c) :
    g.plan = .error (.fault (.ofKind (.cycle c))) := by
  have hlen : g.layers.flatten.length ≠ g.vertices.length := by
    intro h
    have hperm := (perm_flatten_layers hg).mpr h
    exact (exists_plan_iff hg).mp ⟨_, (plan_eq_ok hg).mpr ⟨rfl, hperm⟩⟩ hcyclic
  unfold plan Plan.order
  dsimp only
  rw [if_neg hlen]
  change (g.shortestCycle g.leftOver >>= _) = _
  rw [hc]
  rfl

/-- Arcs between distinct nodes that close a cycle have no plan. The fault names the first of the
shortest cycles of the whole graph, which the search among the vertices left over finds. -/
theorem plan_of_cyclic {nodes : List String} {arcs : List (String × String)} (kinds : Table String)
    (hnodes : nodes.Nodup) (harcs : ∀ a ∈ arcs, a.1 ∈ nodes ∧ a.2 ∈ nodes)
    (hself : ∀ a ∈ arcs, a.1 ≠ a.2) (hcyclic : ∃ c, IsCycle (fun u v => (u, v) ∈ arcs) c) :
    ∃ g c, (ofNodes nodes kinds).addArcs arcs = .ok g ∧
      g.plan = .error (.fault (.ofKind (.cycle c))) ∧
      g.bestCycle g.leftOver g.leftOver none = .ok (some c) ∧
      IsFirstCycle (fun u v => (u, v) ∈ arcs) nodes c := by
  obtain ⟨g, hadd, hg, rfl, hrel⟩ := exists_built kinds hnodes harcs
  have hself' : ∀ v, ¬g.Arc v v := fun v h => hself (v, v) (by rwa [hrel] at h) rfl
  rw [← hrel] at hcyclic ⊢
  obtain ⟨c, hbest, hfirst⟩ := exists_bestCycle hg hself' hcyclic
  have hshortest : g.shortestCycle g.leftOver = .ok c := by
    rw [shortestCycle, hbest]
    rfl
  exact ⟨g, c, hadd, plan_eq_error hg hcyclic hshortest, hbest, hfirst⟩

/-- A cycle of three nodes from the first start, and two of two nodes that start later. -/
theorem plan_of_cyclic_tie :
    let nodes := ["a", "b", "c", "d"]
    let arcs := [("a", "b"), ("c", "a"), ("b", "c"), ("d", "c"), ("c", "d"), ("d", "b"), ("b", "d")]
    nodes.Nodup ∧ (∀ a ∈ arcs, a.1 ∈ nodes ∧ a.2 ∈ nodes) ∧ (∀ a ∈ arcs, a.1 ≠ a.2) ∧
      (∃ c, IsCycle (fun u v => (u, v) ∈ arcs) c) ∧
      ∃ g, (ofNodes nodes).addArcs arcs = .ok g ∧
        g.plan = .error (.fault (.ofKind (.cycle ["b", "d"]))) ∧
        IsFirstCycle (fun u v => (u, v) ∈ arcs) nodes ["b", "d"] := by
  intro nodes arcs
  have hnodes : nodes.Nodup := by decide
  have harcs : ∀ a ∈ arcs, a.1 ∈ nodes ∧ a.2 ∈ nodes := by decide
  have hself : ∀ a ∈ arcs, a.1 ≠ a.2 := by decide
  have hcyclic : ∃ c, IsCycle (fun u v => (u, v) ∈ arcs) c :=
    ⟨["c", "d"], by simp [IsCycle, IsLoop, arcs]⟩
  refine ⟨hnodes, harcs, hself, hcyclic, ?_⟩
  obtain ⟨g, c, hadd, hplan, hbest, hfirst⟩ := plan_of_cyclic [] hnodes harcs hself hcyclic
  have hbuilt : (ofNodes nodes).addArcs arcs =
      .ok ⟨[⟨"a", ["c"]⟩, ⟨"b", ["a", "d"]⟩, ⟨"c", ["b", "d"]⟩, ⟨"d", ["c", "b"]⟩], []⟩ := by decide
  obtain rfl := Except.ok.inj (hadd.symm.trans hbuilt)
  have hleft : leftOver
      ⟨[⟨"a", ["c"]⟩, ⟨"b", ["a", "d"]⟩, ⟨"c", ["b", "d"]⟩, ⟨"d", ["c", "b"]⟩], []⟩ =
      nodes := by cbv
  have hsearch : bestCycle
      ⟨[⟨"a", ["c"]⟩, ⟨"b", ["a", "d"]⟩, ⟨"c", ["b", "d"]⟩, ⟨"d", ["c", "b"]⟩], []⟩
      nodes nodes none = .ok (some ["b", "d"]) := by
    simp [nodes, bestCycle, cycleThrough?, closeFrom, shorter, extendAll, Trail.nodes,
      Trail.extend, Vertex.follows, Vertex.distinct]
  rw [hleft] at hbest
  obtain rfl := Option.some.inj (Except.ok.inj (hbest.symm.trans hsearch))
  exact ⟨_, hadd, hplan, hfirst⟩

end ProjectComposer.Graph
