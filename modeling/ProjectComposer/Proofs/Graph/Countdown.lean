import ProjectComposer.Proofs.Graph.Candidates
import ProjectComposer.Proofs.Graph.Links
import ProjectComposer.Proofs.Graph.ShortestCycle

/-!
Plans by counting down. Before and after every layer the count of a node is the number of arcs to it
from nodes that are in no layer. Within a layer the count of a node falls once for each of its
sources there, and reaches zero with the last of all its sources, so the nodes that are ready are
those of the next level. No count is looked up that is not there, and the layers end where a level
is empty. What is left over then has a positive count, and the search among it is that of the graph
that keeps its arcs once. So counting down has the result of the plan.
-/
namespace ProjectComposer
set_option autoImplicit false

namespace Links

/-! ## Arcs to count -/

section Due
variable {arc : String → String → Prop} {nodes placed placed' : List String} {u v : String}

open Classical in
/-- The number of arcs to a node from nodes that are not placed. -/
noncomputable def due (arc : String → String → Prop) (nodes placed : List String) (v : String) : ℕ :=
  nodes.countP fun u => arc u v ∧ u ∉ placed

theorem due_eq_zero : due arc nodes placed v = 0 ↔ ∀ u ∈ nodes, arc u v → u ∈ placed := by
  simp [due, List.countP_eq_zero]

open Classical in
theorem due_le (h : placed ⊆ placed') : due arc nodes placed' v ≤ due arc nodes placed v := by
  refine List.countP_mono_left fun u _ hu => ?_
  rw [decide_eq_true_iff] at hu ⊢
  exact ⟨hu.1, fun hmem => hu.2 (h hmem)⟩

open Classical in
/-- Placing one node counts its arc, if it has one. -/
theorem due_concat (hnodes : nodes.Nodup) (hu : u ∈ nodes) (hplaced : u ∉ placed) :
    due arc nodes placed v = due arc nodes (placed ++ [u]) v + if arc u v then 1 else 0 := by
  obtain ⟨before, after, rfl⟩ := List.append_of_mem hu
  have hapart : u ∉ before ++ after := (List.nodup_middle.mp hnodes).notMem
  rw [List.mem_append, not_or] at hapart
  have hsame : ∀ part : List String, u ∉ part →
      (part.countP fun x => arc x v ∧ x ∉ placed) =
        part.countP fun x => arc x v ∧ x ∉ placed ++ [u] := by
    intro part hpart
    refine List.countP_congr fun x hx => ?_
    have hne : x ≠ u := fun h => hpart (h ▸ hx)
    simp [hne]
  unfold due
  rw [List.countP_append, List.countP_append, List.countP_cons, List.countP_cons,
    hsame before hapart.1, hsame after hapart.2]
  simp only [hplaced, not_false_eq_true, and_true, List.mem_append, List.mem_singleton, or_true,
    not_true_eq_false, and_false, decide_false, Bool.false_eq_true, if_false, decide_eq_true_eq]
  omega

theorem due_nil_eq_length (hnodes : nodes.Nodup) {set : List String} (hset : set.Nodup)
    (hmem : ∀ u, u ∈ set ↔ arc u v) (hsub : ∀ u, arc u v → u ∈ nodes) :
    due arc nodes [] v = set.length := by
  classical
  unfold due
  rw [List.countP_eq_length_filter]
  refine ((List.perm_ext_iff_of_nodup (hnodes.filter _) hset).mpr fun u => ?_).length_eq
  rw [List.mem_filter, hmem]
  simp only [List.not_mem_nil, not_false_eq_true, and_true, decide_eq_true_eq]
  exact and_iff_right_of_imp (hsub u)

end Due

/-! ## One node -/

/-- What counting an arc to each of some nodes does: one comes off their counts, and those whose
last arc was counted are ready. -/
structure Lowers (t : Table Int) (ready vs : List String) (s : Table Int × List String) : Prop where
  get?_eq : ∀ w, s.1.get? w = if w ∈ vs then (t.get? w).map (· - 1) else t.get? w
  nodup : ready.Nodup → s.2.Nodup
  mem_iff : ∀ w, w ∈ s.2 ↔ w ∈ ready ∨ (w ∈ vs ∧ t.get? w = some 1)

section Lowers
variable {t : Table Int} {ready vs : List String} {s : Table Int × List String} {v : String}

theorem Lowers.next (h : Lowers t ready vs s) (hv : v ∉ vs) {n : Int} (hn : t.get? v = some n) :
    ∃ s', countDown s v = .ok s' ∧ Lowers t ready (vs ++ [v]) s' := by
  have hcount : s.1.entry v = .ok n := by
    rw [Table.entry_eq_ok, h.get?_eq, if_neg hv, hn]
  have hlast : t.get? v = some 1 ↔ n - 1 = 0 := by
    rw [hn, Option.some.injEq]
    omega
  refine ⟨(s.1.put v (n - 1), if n - 1 = 0 then s.2.insert v else s.2), ?_, fun w => ?_,
    fun hready => ?_, fun w => ?_⟩
  · rw [countDown, hcount]
    rfl
  · rw [Table.get?_put, h.get?_eq]
    by_cases hw : v = w
    · subst hw
      simp [hn]
    · simp [hw, Ne.symm hw]
  · dsimp only
    split
    · exact (h.nodup hready).insert
    · exact h.nodup hready
  · dsimp only
    by_cases hw : w = v
    · subst hw
      split
      · next hzero => simp [hlast.mpr hzero]
      · next hpos => simp [h.mem_iff, hv, mt hlast.mp hpos]
    · split
      · simp [h.mem_iff, hw]
      · simp [h.mem_iff, hw]

theorem exists_lowers (hvs : vs.Nodup) (hfound : ∀ v ∈ vs, ∃ n, t.get? v = some n) :
    ∃ s', vs.foldlM countDown (t, ready) = .ok s' ∧ Lowers t ready vs s' := by
  refine exists_foldlM_done (Lowers t ready) ?_ ⟨by simp, id, by simp⟩
  rintro done v rest s rfl h
  obtain ⟨n, hn⟩ := hfound v (by simp)
  have hnew : v ∉ done := fun hm => (List.nodup_append.mp hvs).2.2 v hm v List.mem_cons_self rfl
  exact h.next hnew hn

end Lowers

/-! ## One layer -/

/-- The counts once some nodes are placed, and the nodes ready since others were. -/
structure Counted (l : Links) (arc : String → String → Prop) (before placed : List String)
    (s : Table Int × List String) : Prop where
  count : ∀ v ∈ l.nodes, s.1.get? v = some (due arc l.nodes placed v : Int)
  nodup : s.2.Nodup
  mem_ready : ∀ v, v ∈ s.2 ↔
    v ∈ l.nodes ∧ due arc l.nodes placed v = 0 ∧ due arc l.nodes before v ≠ 0

section Layer
variable {l : Links} {arc : String → String → Prop} {before placed layer : List String}
  {s : Table Int × List String} {u : String}

/-- Releasing a node counts its arcs, so its place is accounted for. -/
theorem Counted.release (hnodes : l.nodes.Nodup) (hl : l.Holds arc)
    (h : l.Counted arc before placed s) (hbefore : before ⊆ placed) (hu : u ∈ l.nodes)
    (hplaced : u ∉ placed) :
    ∃ s', l.release s u = .ok s' ∧ l.Counted arc before (placed ++ [u]) s' := by
  classical
  obtain ⟨targets, htargets, hnodup, hmem⟩ := hl.successors.exists_entry hu
  have hnode : ∀ v ∈ targets, v ∈ l.nodes := fun v hv => (hl.ends u v ((hmem v).mp hv)).2
  obtain ⟨s', hs', hlow⟩ : ∃ s', targets.foldlM countDown s = .ok s' ∧ Lowers s.1 s.2 targets s' :=
    exists_lowers hnodup fun v hv => ⟨_, h.count v (hnode v hv)⟩
  have hdue (v : String) : due arc l.nodes placed v =
      due arc l.nodes (placed ++ [u]) v + if arc u v then 1 else 0 :=
    due_concat hnodes hu hplaced
  refine ⟨s', ?_, fun v hv => ?_, hlow.nodup h.nodup, fun v => ?_⟩
  · rw [Links.release, htargets]
    exact hs'
  · rw [hlow.get?_eq, h.count v hv, hdue v]
    by_cases harc : arc u v
    · simp [hmem, harc]
    · simp [hmem, harc]
  · have hle : due arc l.nodes placed v ≤ due arc l.nodes before v := due_le hbefore
    have hcount : v ∈ targets → (s.1.get? v = some 1 ↔ due arc l.nodes placed v = 1) := by
      intro hv
      rw [h.count v (hnode v hv), Option.some.injEq]
      omega
    rw [hlow.mem_iff, h.mem_ready, and_congr_right hcount, hmem]
    have hv := hdue v
    by_cases harc : arc u v
    · have hin : v ∈ l.nodes := (hl.ends u v harc).2
      simp only [harc, if_true, hin, true_and] at hv ⊢
      omega
    · simp only [harc, if_false, false_and, or_false] at hv ⊢
      rw [hv, Nat.add_zero]

theorem Counted.releaseAll (hnodes : l.nodes.Nodup) (hl : l.Holds arc)
    (h : l.Counted arc before before s) (hlayer : (before ++ layer).Nodup)
    (hsub : layer ⊆ l.nodes) :
    ∃ s', layer.foldlM l.release s = .ok s' ∧ l.Counted arc before (before ++ layer) s' := by
  refine exists_foldlM_done (fun done s => l.Counted arc before (before ++ done) s) ?_
    ((List.append_nil before).symm ▸ h)
  rintro done u rest s rfl hdone
  rw [← List.append_assoc] at hlayer ⊢
  have hnew : u ∉ before ++ done := fun hm =>
    (List.nodup_append.mp hlayer).2.2 u hm u List.mem_cons_self rfl
  exact hdone.release hnodes hl (List.subset_append_left before done) (hsub (by simp)) hnew

end Layer

/-! ## All layers -/

/-- The nodes of the first levels. -/
noncomputable def placedBy (arc : String → String → Prop) (nodes : List String) (n : ℕ) :
    List String :=
  ((List.range n).map (Graph.level arc nodes)).flatten

section Levels
variable {arc : String → String → Prop} {nodes : List String} {n : ℕ} {v : String}

theorem placedBy_succ (arc : String → String → Prop) (nodes : List String) (n : ℕ) :
    placedBy arc nodes (n + 1) = placedBy arc nodes n ++ Graph.level arc nodes n := by
  simp [placedBy, List.range_succ]

theorem mem_placedBy : v ∈ placedBy arc nodes n ↔ v ∈ nodes ∧ Graph.EndsWithin arc n v := by
  induction n with
  | zero => simp [placedBy, Graph.not_endsWithin_zero]
  | succ n ih =>
    rw [placedBy_succ, List.mem_append, ih, Graph.mem_level]
    constructor
    · rintro (⟨hv, h⟩ | ⟨hv, h, -⟩)
      · exact ⟨hv, h.mono n.le_succ⟩
      · exact ⟨hv, h⟩
    · rintro ⟨hv, h⟩
      by_cases hn : Graph.EndsWithin arc n v
      · exact .inl ⟨hv, hn⟩
      · exact .inr ⟨hv, h, hn⟩

theorem nodup_placedBy (hnodes : nodes.Nodup) (n : ℕ) : (placedBy arc nodes n).Nodup := by
  induction n with
  | zero => exact List.nodup_nil
  | succ n ih =>
    rw [placedBy_succ]
    refine ih.append ((Graph.level_sublist nodes n).nodup hnodes) fun v hv hv' => ?_
    exact (Graph.mem_level.mp hv').2.2 (mem_placedBy.mp hv).2

/-- No arc to a node is left to count exactly if all its walks are shorter than the levels placed
and it. -/
theorem due_placedBy_eq_zero (hends : ∀ u, arc u v → u ∈ nodes) :
    due arc nodes (placedBy arc nodes n) v = 0 ↔ Graph.EndsWithin arc (n + 1) v := by
  simp only [due_eq_zero, mem_placedBy, Graph.endsWithin_succ]
  constructor
  · exact fun h u harc => (h u (hends u harc) harc).2
  · exact fun h u hu harc => ⟨hu, h u harc⟩

end Levels

/-- The state of the count once the first levels are layers. -/
structure Reached (l : Links) (arc : String → String → Prop) (n : ℕ) (c : Countdown) : Prop where
  layers_eq : c.layers = (List.range n).map (Graph.level arc l.nodes)
  current_eq : c.current = Graph.level arc l.nodes n
  scheduled_eq : c.scheduled = (placedBy arc l.nodes n).length
  count : ∀ v ∈ l.nodes, c.inDegree.get? v = some (due arc l.nodes (placedBy arc l.nodes n) v : Int)

section Rounds
variable {l : Links} {arc : String → String → Prop} {n k : ℕ} {c : Countdown}

theorem counted_eq_ok {inDegree : Table Int} {test : Int → Bool} {degree : String → Int}
    (h : ∀ v ∈ l.nodes, inDegree.get? v = some (degree v)) :
    l.counted inDegree test = .ok (l.nodes.filter fun v => test (degree v)) := by
  have hrun : ∀ (rest done : List String), rest ⊆ l.nodes →
      List.filterAuxM (fun id => do return test (← inDegree.entry id)) rest done =
        Except.ok ((rest.filter fun v => test (degree v)).reverse ++ done) := by
    intro rest
    induction rest with
    | nil => exact fun done _ => rfl
    | cons v rest ih =>
      intro done hsub
      obtain ⟨hv, hrest⟩ := List.cons_subset.mp hsub
      have hentry := Table.entry_eq_ok.mpr (h v hv)
      rw [List.filterAuxM, hentry]
      change List.filterAuxM _ rest (cond (test (degree v)) (v :: done) done) = _
      rw [ih _ hrest]
      cases htest : test (degree v) <;> simp [htest]
  unfold counted List.filterM
  rw [hrun l.nodes [] (List.Subset.refl _), List.append_nil]
  exact congrArg Except.ok (List.reverse_reverse _)

theorem exists_reached (hnodes : l.nodes.Nodup) (hl : l.Holds arc) :
    ∃ c, l.startCount = .ok c ∧ l.Reached arc 0 c := by
  have hdegree : ∀ v ∈ l.nodes, (do return (v, ((← l.predecessors.entry v).length : Int))) =
      (Except.ok (v, (due arc l.nodes [] v : Int)) : Except Failure (String × Int)) := by
    intro v hv
    obtain ⟨sources, hsources, hnodup, hmem⟩ := hl.predecessors.exists_entry hv
    rw [hsources, due_nil_eq_length hnodes hnodup hmem fun u harc => (hl.ends u v harc).1]
    rfl
  let degrees : List (String × Int) := l.nodes.map fun v => (v, (due arc l.nodes [] v : Int))
  have hkeys : (degrees.map Prod.fst).Nodup := by
    simpa [degrees, Function.comp_def] using hnodes
  have hcount : ∀ v ∈ l.nodes,
      (Table.ofPairs degrees).get? v = some (due arc l.nodes [] v : Int) := by
    intro v hv
    rw [Table.ofPairs_eq_self hkeys, Table.get?_eq_some_iff hkeys]
    exact List.mem_map_of_mem hv
  refine ⟨{ current := Graph.level arc l.nodes 0, inDegree := .ofPairs degrees }, ?_, rfl, rfl, rfl,
    hcount⟩
  have hcurrent : (l.nodes.filter fun v => decide ((due arc l.nodes [] v : Int) = 0)) =
      Graph.level arc l.nodes 0 := by
    classical
    unfold Graph.level
    refine List.filter_congr fun v _ => ?_
    have hzero := due_placedBy_eq_zero (n := 0) fun u harc => (hl.ends u v harc).1
    rw [decide_eq_decide, Int.natCast_eq_zero]
    rw [and_iff_left (Graph.not_endsWithin_zero v)]
    exact hzero
  have htest : l.counted (.ofPairs degrees) (· = 0) = .ok (Graph.level arc l.nodes 0) :=
    hcurrent ▸ counted_eq_ok hcount
  simp only [startCount, bind_eq_ok, pure_eq_ok]
  exact ⟨degrees, mapM_eq_ok_map hdegree, _, htest, rfl⟩

theorem Reached.last (h : l.Reached arc n c) (hlevel : Graph.level arc l.nodes n = []) :
    l.nextLayer c = .ok (.inl c) := by
  unfold nextLayer
  rw [if_pos (h.current_eq.trans hlevel)]
  rfl

/-- The nodes that are ready after a layer are those of the next level. -/
theorem Reached.next (hnodes : l.nodes.Nodup) (hl : l.Holds arc) (h : l.Reached arc n c)
    (hlevel : Graph.level arc l.nodes n ≠ []) :
    ∃ c', l.nextLayer c = .ok (.inr c') ∧ l.Reached arc (n + 1) c' := by
  have hsub : Graph.level arc l.nodes n ⊆ l.nodes := (Graph.level_sublist _ n).subset
  have hplaced : (placedBy arc l.nodes (n + 1)).Nodup := nodup_placedBy hnodes (n + 1)
  rw [placedBy_succ] at hplaced
  have hstart : l.Counted arc (placedBy arc l.nodes n) (placedBy arc l.nodes n) (c.inDegree, []) :=
    ⟨h.count, List.nodup_nil, fun v => by simp⟩
  obtain ⟨⟨inDegree, ready⟩, hrun, hcounted⟩ := hstart.releaseAll hnodes hl hplaced hsub
  rw [← placedBy_succ] at hcounted
  have hready : ready ⊆ l.nodes := fun v hv => ((hcounted.mem_ready v).mp hv).1
  have hsorted := sortedByPlace_eq_ok hnodes hcounted.nodup hready
  have hlayer : l.nodes.filter (· ∈ ready) = Graph.level arc l.nodes (n + 1) := by
    classical
    unfold Graph.level
    refine List.filter_congr fun v hv => ?_
    have hends : ∀ u, arc u v → u ∈ l.nodes := fun u harc => (hl.ends u v harc).1
    rw [decide_eq_decide, hcounted.mem_ready, due_placedBy_eq_zero hends, ne_eq,
      due_placedBy_eq_zero hends, and_iff_right hv]
  refine ⟨⟨c.layers ++ [c.current], Graph.level arc l.nodes (n + 1),
    c.scheduled + c.current.length, inDegree⟩, ?_, ?_, rfl, ?_, hcounted.count⟩
  · unfold nextLayer
    rw [if_neg (h.current_eq ▸ hlevel)]
    simp only [bind_eq_ok, pure_eq_ok]
    exact ⟨_, h.current_eq ▸ hrun, _, hlayer ▸ hsorted, rfl⟩
  · rw [h.layers_eq, h.current_eq, List.range_succ, List.map_append]
    rfl
  · rw [h.scheduled_eq, h.current_eq, placedBy_succ, List.length_append]

/-- The loop ends where a level is empty. -/
theorem Reached.exists_loop (hnodes : l.nodes.Nodup) (hl : l.Holds arc) (h : l.Reached arc n c)
    (hnk : n ≤ k) (hne : ∀ j < k, Graph.level arc l.nodes j ≠ [])
    (hempty : Graph.level arc l.nodes k = []) :
    ∃ c', Part.loop (fun c => liftM (l.nextLayer c)) c = (pure c' : Graph.Attempt Countdown) ∧
      l.Reached arc k c' := by
  obtain ⟨d, rfl⟩ := Nat.exists_eq_add_of_le hnk
  induction d generalizing n c with
  | zero =>
    refine ⟨c, Part.loop_of_last ?_, h⟩
    rw [h.last hempty]
    rfl
  | succ d ih =>
    obtain ⟨c₁, h₁, hreached⟩ := h.next hnodes hl (hne n (by omega))
    have hshift : n + 1 + d = n + (d + 1) := by omega
    obtain ⟨c', h', hreached'⟩ := ih hreached (by omega) (hshift ▸ hne) (hshift ▸ hempty)
    refine ⟨c', ?_, hshift ▸ hreached'⟩
    rw [← h']
    refine Part.loop_of_next ?_
    rw [h₁]
    rfl

end Rounds
/-! ## Plans -/

section Plans
variable {l : Links} {g : Graph}

theorem targets_eq (hg : g.WellFormed) (hnodes : l.nodes = g.nodes) (hl : l.Holds g.Arc)
    (candidates : List String) : l.targets candidates = g.targets candidates := by
  have hnodup : l.nodes.Nodup := hnodes.symm ▸ hg.nodup_nodes
  funext u
  unfold targets Graph.targets
  by_cases hu : u ∈ l.nodes
  · obtain ⟨set, hset, hset', hmem⟩ := hl.successors.exists_entry hu
    have hsub : set.filter (· ∈ candidates) ⊆ l.nodes := fun v hv =>
      (hl.ends u v ((hmem v).mp (List.mem_filter.mp hv).1)).2
    have hsorted := sortedByPlace_eq_ok hnodup (hset'.filter _) hsub
    have hsame : l.nodes.filter (· ∈ set.filter (· ∈ candidates)) = g.targetsOf candidates u := by
      rw [hnodes, Graph.targetsOf, Vertex.distinct_eq_self hg.nodup_nodes, Graph.nodes,
        List.filter_map]
      congr 1
      refine List.filter_congr fun w hw => ?_
      simp [hmem, ← hg.follows_iff_arc hw]
    rw [hset, if_pos (hnodes ▸ hu), ← hsame]
    exact congrArg liftM hsorted
  · rw [Table.entry_of_not_mem (hl.successors.keys_eq.symm ▸ hu), if_neg (hnodes ▸ hu)]
    rfl

/-- The nodes left over are those whose count is positive. -/
theorem counted_eq_leftOver (hg : g.WellFormed) (hnodes : l.nodes = g.nodes)
    {inDegree : Table Int}
    (hcount : ∀ v ∈ l.nodes, inDegree.get? v = some (due g.Arc l.nodes g.layers.flatten v : Int)) :
    l.counted inDegree (0 < ·) = .ok g.leftOver := by
  obtain ⟨k, -, -, -, hplaced, -⟩ := Graph.exists_layers_eq hg
  rw [counted_eq_ok hcount, hnodes, Graph.nodes, List.filter_map, Graph.leftOver, idsOf, unreadyOf]
  congr 2
  refine List.filter_congr fun w hw => ?_
  have hready : w.isReady g.layers.flatten = true ↔
      due g.Arc l.nodes g.layers.flatten w.id = 0 := by
    rw [Vertex.isReady_iff hplaced (hg.nodup_predecessors w hw), due_eq_zero]
    constructor
    · exact fun h u _ harc => h u ((hg.arc_iff hw).mp harc)
    · exact fun h u hu => h u (hnodes ▸ hg.predecessors_subset w hw hu) ((hg.arc_iff hw).mpr hu)
  rw [Bool.eq_iff_iff, Bool.not_eq_true', Bool.eq_false_iff, ne_eq, hready]
  simp only [Function.comp_apply, decide_eq_true_eq, hnodes, Graph.nodes]
  omega

/-- What a graph with a cycle fails with is a cycle, also where an arc leads from a node to
itself. -/
theorem exists_plan_eq_error (hg : g.WellFormed) (hcyclic : ∃ c, Graph.IsCycle g.Arc c) :
    ∃ c, Graph.IsCycle g.Arc c ∧ g.plan = .error (.fault (.ofKind (.cycle c))) := by
  obtain ⟨c, -, hc, hanswer⟩ := Graph.exists_shortestByQueue hg g.leftOver_sublist.subset
  obtain ⟨d, hd⟩ := hcyclic
  exact ⟨c, (hanswer.of_cycle ⟨d, hd, hd.2.subset_leftOver hg⟩).1,
    Graph.plan_eq_error hg ⟨d, hd⟩ hc⟩

/-- Where both tables hold the arcs of a graph, counting down ends with the plan of the graph or
with its fault. -/
theorem schedule_eq_plan (hg : g.WellFormed) (hnodes : l.nodes = g.nodes) (hl : l.Holds g.Arc) :
    l.schedule.run = Part.some g.plan := by
  have hnodup : l.nodes.Nodup := hnodes.symm ▸ hg.nodup_nodes
  obtain ⟨c₀, hc₀, hstart⟩ := exists_reached hnodup hl
  obtain ⟨k, hlayers, hne, hempty, -⟩ := Graph.exists_layers_eq hg
  rw [← hnodes] at hlayers hne hempty
  obtain ⟨c, hloop, hreached⟩ := hstart.exists_loop hnodup hl k.zero_le hne hempty
  have hflatten : placedBy g.Arc l.nodes k = g.layers.flatten := by
    rw [placedBy, hlayers]
  have hcount := hreached.count
  rw [hflatten] at hcount
  have hdone : c.scheduled = g.layers.flatten.length := by
    rw [hreached.scheduled_eq, hflatten]
  have hlength : l.nodes.length = g.vertices.length := by
    rw [hnodes, Graph.nodes, List.length_map]
  obtain ⟨cycle, hsearch, hcycle, -⟩ :=
    Graph.exists_shortestByQueue hg g.leftOver_sublist.subset
  rw [Graph.shortestByQueue, ← targets_eq hg hnodes hl] at hsearch
  unfold schedule
  rw [hc₀, Part.liftM_ok, pure_bind, hloop, pure_bind, hdone, hlength]
  unfold Graph.plan Plan.order
  dsimp only
  split
  · rw [hreached.layers_eq, ← hlayers]
    rfl
  · change _ = Part.some (g.shortestCycle g.leftOver >>= _)
    rw [counted_eq_leftOver hg hnodes hcount, hcycle, Part.liftM_ok, pure_bind, hsearch,
      pure_bind]
    rfl

/-- Given arcs build both tables as they build a graph, and counting down has the result of the
plan. -/
theorem exists_schedule {nodes : List String} {arcs : List (String × String)} (kinds : Table String)
    (hnodes : nodes.Nodup) (harcs : ∀ a ∈ arcs, a.1 ∈ nodes ∧ a.2 ∈ nodes) :
    ∃ l g, (ofNodes nodes kinds).addArcs arcs = .ok l ∧
      (Graph.ofNodes nodes kinds).addArcs arcs = .ok g ∧ g.WellFormed ∧
      g.Arc = (fun u v => (u, v) ∈ arcs) ∧ l.Holds (fun u v => (u, v) ∈ arcs) ∧
      l.schedule.run = Part.some g.plan := by
  obtain ⟨l, hl, hnodes', -, hholds⟩ := exists_holds kinds hnodes harcs
  obtain ⟨g, hadd, hg, rfl, hrel⟩ := Graph.exists_built kinds hnodes harcs
  have hsame : l.Holds g.Arc := hrel ▸ hholds
  exact ⟨l, g, hl, hadd, hg, hrel, hholds, schedule_eq_plan hg hnodes' hsame⟩

end Plans

/-- Given arcs build two tables that hold exactly these arcs, from either end. Counting down then
always ends: with a plan unless the arcs close a cycle, and else with the fault that names one. The
plan layers the nodes by longest path and does not depend on the order or repetition of the
arcs. -/
theorem schedule_layering {nodes : List String} {arcs : List (String × String)}
    (kinds : Table String) (hnodes : nodes.Nodup) (harcs : ∀ a ∈ arcs, a.1 ∈ nodes ∧ a.2 ∈ nodes) :
    ∃ l, (ofNodes nodes kinds).addArcs arcs = .ok l ∧ l.Holds (fun u v => (u, v) ∈ arcs) ∧
      ((∃ p, l.schedule.run = Part.some (.ok p)) ↔
        ¬∃ c, Graph.IsCycle (fun u v => (u, v) ∈ arcs) c) ∧
      ((∃ c, Graph.IsCycle (fun u v => (u, v) ∈ arcs) c) →
        ∃ c, Graph.IsCycle (fun u v => (u, v) ∈ arcs) c ∧
          l.schedule.run = Part.some (.error (.fault (.ofKind (.cycle c))))) ∧
      ∀ p, l.schedule.run = Part.some (.ok p) →
        Graph.IsLayering (fun u v => (u, v) ∈ arcs) nodes p.layers ∧
          ∀ arcs', (∀ a, a ∈ arcs' ↔ a ∈ arcs) → ∃ l', (ofNodes nodes kinds).addArcs arcs' = .ok l' ∧
            l'.schedule.run = Part.some (.ok p) := by
  obtain ⟨l, g, hl, hadd, hg, hrel, hholds, hrun⟩ := exists_schedule kinds hnodes harcs
  obtain ⟨g', hadd', hexists, hlayering⟩ := Graph.plan_layering kinds hnodes harcs
  obtain rfl := Except.ok.inj (hadd.symm.trans hadd')
  have hplan : ∀ p, l.schedule.run = Part.some (.ok p) ↔ g.plan = .ok p := by
    intro p
    rw [hrun, Part.some_inj]
  refine ⟨l, hl, hholds, by simpa only [hplan] using hexists, fun hcyclic => ?_, fun p hp => ?_⟩
  · rw [← hrel] at hcyclic ⊢
    obtain ⟨c, hc, hfault⟩ := exists_plan_eq_error hg hcyclic
    exact ⟨c, hc, hrun.trans (congrArg Part.some hfault)⟩
  · obtain ⟨hp, hother⟩ := hlayering p ((hplan p).mp hp)
    refine ⟨hp, fun arcs' hmem => ?_⟩
    obtain ⟨g₁, hg₁, hp₁⟩ := hother arcs' hmem
    obtain ⟨l', g₂, hl', hg₂, -, -, -, hrun'⟩ :=
      exists_schedule kinds hnodes fun a ha => harcs a ((hmem a).mp ha)
    obtain rfl := Except.ok.inj (hg₁.symm.trans hg₂)
    exact ⟨l', hl', hrun'.trans (congrArg Part.some hp₁)⟩

/-- An arc added twice, and a node that is reached both directly and on a longer way. -/
theorem schedule_layering_shortcut :
    let nodes := ["web", "db", "api", "docs"]
    let arcs := [("api", "web"), ("db", "api"), ("db", "web"), ("db", "api")]
    nodes.Nodup ∧ (∀ a ∈ arcs, a.1 ∈ nodes ∧ a.2 ∈ nodes) ∧
      ∃ l p, (ofNodes nodes).addArcs arcs = .ok l ∧ l.schedule.run = Part.some (.ok p) ∧
        p.layers = [["db", "docs"], ["api"], ["web"]] ∧
        Graph.IsLayering (fun u v => (u, v) ∈ arcs) nodes p.layers := by
  intro nodes arcs
  have hnodes : nodes.Nodup := by decide
  have harcs : ∀ a ∈ arcs, a.1 ∈ nodes ∧ a.2 ∈ nodes := by decide
  refine ⟨hnodes, harcs, ?_⟩
  obtain ⟨l, hl, -, -, -, hlayering⟩ := schedule_layering [] hnodes harcs
  obtain ⟨l', g, hl', hg, -, -, -, hrun⟩ := exists_schedule [] hnodes harcs
  obtain rfl := Except.ok.inj (hl.symm.trans hl')
  have hbuilt : (Graph.ofNodes nodes).addArcs arcs =
      .ok ⟨[⟨"web", ["api", "db"]⟩, ⟨"db", []⟩, ⟨"api", ["db"]⟩, ⟨"docs", []⟩], []⟩ := by decide
  obtain rfl := Except.ok.inj (hg.symm.trans hbuilt)
  have hplan : Graph.plan
      ⟨[⟨"web", ["api", "db"]⟩, ⟨"db", []⟩, ⟨"api", ["db"]⟩, ⟨"docs", []⟩], []⟩ =
      .ok ⟨[["db", "docs"], ["api"], ["web"]]⟩ := by cbv
  rw [hplan] at hrun
  exact ⟨_, _, hl, hrun, rfl, (hlayering _ hrun).1⟩

end Links
end ProjectComposer
