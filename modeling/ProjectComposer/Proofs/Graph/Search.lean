import Mathlib.Data.List.Lex
import Mathlib.Data.Nat.Basic
import ProjectComposer.Graph.Cycle
import ProjectComposer.Proofs.Graph.Arcs

/-!
The search for a loop through one node, in rounds. Round `k` holds a walk of `k` arcs to every node
that less arcs do not reach, and of several such walks the first one by the places of their nodes.
The walks are held in that order: walks that differ are extended in the order they have, and one
walk is extended to the vertices in the order of the graph. So the first walk that an arc closes is
the first of the shortest loops, and where the search ends without one there is none.
-/
namespace ProjectComposer.Graph
set_option autoImplicit false

/-! ## Order of walks -/

/-- The places of nodes in the order of a graph. -/
def places (nodes w : List String) : List ℕ :=
  w.map nodes.idxOf

@[simp] theorem length_places (nodes w : List String) : (places nodes w).length = w.length :=
  List.length_map _

theorem places_append (nodes w w' : List String) :
    places nodes (w ++ w') = places nodes w ++ places nodes w' :=
  List.map_append

theorem append_lt_append {a b : List ℕ} (h : a < b) (hlen : a.length = b.length) (c d : List ℕ) :
    a ++ c < b ++ d := by
  induction a generalizing b with
  | nil =>
    rw [List.eq_nil_of_length_eq_zero hlen.symm] at h
    exact absurd h (lt_irrefl _)
  | cons x a ih =>
    cases b with
    | nil => simp at hlen
    | cons y b =>
      rw [List.cons_append, List.cons_append, List.cons_lt_cons_iff]
      rcases List.cons_lt_cons_iff.mp h with hxy | ⟨hxy, hab⟩
      · exact .inl hxy
      · exact .inr ⟨hxy, ih hab (by simpa using hlen)⟩

theorem append_le_append {a b : List ℕ} (h : a ≤ b) (hlen : a.length = b.length) (c : List ℕ) :
    a ++ c ≤ b ++ c := by
  rcases h.lt_or_eq with hlt | rfl
  · exact (append_lt_append hlt hlen c c).le
  · exact le_rfl

/-- Nodes listed in the order of the graph have increasing places. -/
theorem pairwise_idxOf {nodes l : List String} (h : nodes.Nodup) (hl : l.Sublist nodes) :
    l.Pairwise fun u v => nodes.idxOf u < nodes.idxOf v := by
  refine List.Pairwise.sublist hl ?_
  rw [List.pairwise_iff_getElem]
  intro i j hi hj hij
  rwa [h.idxOf_getElem i hi, h.idxOf_getElem j hj]

/-! ## Extending trails -/

theorem Trail.nodes_eq (t : Trail) : t.nodes = t.earlier.reverse ++ [t.last] :=
  List.reverse_cons

theorem Trail.nodes_extend (t : Trail) (v : Vertex) : (t.extend v).nodes = t.nodes ++ [v.id] := by
  rw [nodes_eq, nodes_eq]
  simp [extend]

theorem extendAll_snd (ts : List Trail) (unmet : List Vertex) :
    (extendAll ts unmet).2 = unmet.filter fun v => !ts.any fun t => v.follows t.last := by
  induction ts generalizing unmet with
  | nil => simp [extendAll]
  | cons t ts ih =>
    rw [extendAll]
    dsimp only
    rw [ih, List.filter_filter]
    apply List.filter_congr
    intro v _
    rw [List.any_cons, Bool.not_or, Bool.and_comm]

theorem mem_extendAll {ts : List Trail} {unmet : List Vertex} {t' : Trail}
    (h : t' ∈ (extendAll ts unmet).1) :
    ∃ t ∈ ts, ∃ v ∈ unmet, v.follows t.last = true ∧ t' = t.extend v := by
  induction ts generalizing unmet with
  | nil => exact absurd h List.not_mem_nil
  | cons t ts ih =>
    rw [extendAll] at h
    rcases List.mem_append.mp h with h | h
    · obtain ⟨v, hv, rfl⟩ := List.mem_map.mp h
      obtain ⟨hv, hfollows⟩ := List.mem_filter.mp hv
      exact ⟨t, List.mem_cons_self, v, hv, hfollows, rfl⟩
    · obtain ⟨t₁, ht₁, v, hv, hfollows, rfl⟩ := ih h
      exact ⟨t₁, List.mem_cons_of_mem t ht₁, v, (List.mem_filter.mp hv).1, hfollows, rfl⟩

/-- A vertex that some trail leads to is met by the first such trail. -/
theorem exists_mem_extendAll {ts : List Trail} {unmet : List Vertex} {r : Trail → Trail → Prop}
    (hts : ts.Pairwise r) {t : Trail} (ht : t ∈ ts) {v : Vertex} (hv : v ∈ unmet)
    (hfollows : v.follows t.last = true) :
    ∃ t₁ ∈ ts, (t₁ = t ∨ r t₁ t) ∧ t₁.extend v ∈ (extendAll ts unmet).1 := by
  induction ts generalizing unmet with
  | nil => exact absurd ht List.not_mem_nil
  | cons t₁ ts ih =>
    obtain ⟨hbefore, hts⟩ := List.pairwise_cons.mp hts
    rw [extendAll]
    by_cases hfirst : v.follows t₁.last = true
    · refine ⟨t₁, List.mem_cons_self, ?_, ?_⟩
      · rcases List.mem_cons.mp ht with rfl | ht
        · exact .inl rfl
        · exact .inr (hbefore t ht)
      · exact List.mem_append_left _ (List.mem_map_of_mem (List.mem_filter.mpr ⟨hv, hfirst⟩))
    · rcases List.mem_cons.mp ht with rfl | ht
      · exact absurd hfollows hfirst
      · have hleft : v ∈ unmet.filter fun v => !v.follows t₁.last :=
          List.mem_filter.mpr ⟨hv, by simpa using hfirst⟩
        obtain ⟨t₂, ht₂, hle, hmem⟩ := ih hts ht hleft
        exact ⟨t₂, List.mem_cons_of_mem t₁ ht₂, hle, List.mem_append_right _ hmem⟩

/-- Extended trails keep the order of the trails, and behind one trail that of the vertices. -/
theorem pairwise_extendAll {nodes : List String} {ts : List Trail} {unmet : List Vertex} {k : ℕ}
    (hts : ts.Pairwise fun t t' => places nodes t.nodes < places nodes t'.nodes)
    (hlen : ∀ t ∈ ts, t.nodes.length = k)
    (hunmet : unmet.Pairwise fun v v' => nodes.idxOf v.id < nodes.idxOf v'.id) :
    (extendAll ts unmet).1.Pairwise fun t t' => places nodes t.nodes < places nodes t'.nodes := by
  induction ts generalizing unmet with
  | nil => exact List.Pairwise.nil
  | cons t ts ih =>
    obtain ⟨hbefore, hts⟩ := List.pairwise_cons.mp hts
    obtain ⟨ht, hlen⟩ := List.forall_mem_cons.mp hlen
    rw [extendAll]
    refine List.pairwise_append.mpr ⟨?_, ih hts hlen (hunmet.filter _), ?_⟩
    · refine List.pairwise_map.mpr ((hunmet.filter _).imp fun {v v'} hvv' => ?_)
      rw [Trail.nodes_extend, Trail.nodes_extend, places_append, places_append]
      exact List.append_left_lt (List.cons_lt_cons_iff.mpr (.inl hvv'))
    · intro x hx y hy
      obtain ⟨v, -, rfl⟩ := List.mem_map.mp hx
      obtain ⟨t', ht', v', -, -, rfl⟩ := mem_extendAll hy
      rw [Trail.nodes_extend, Trail.nodes_extend, places_append, places_append]
      refine append_lt_append (hbefore t' ht') ?_ _ _
      rw [length_places, length_places, ht, hlen t' ht']

/-! ## Walks from the start -/

section Walks
variable {V : Type} {arc : V → V → Prop} {inside : List V} {s : V}

/-- A walk that begins at `s` and stays inside a list of nodes. -/
structure WalkFrom (arc : V → V → Prop) (inside : List V) (s : V) (w : List V) : Prop where
  isChain : w.IsChain arc
  head?_eq : w.head? = some s
  subset : w ⊆ inside

/-- A loop that begins at `s` and stays inside a list of nodes. -/
structure LoopFrom (arc : V → V → Prop) (inside : List V) (s : V) (c : List V) : Prop where
  isLoop : IsLoop arc c
  head?_eq : c.head? = some s
  subset : c ⊆ inside

/-- Whether a node is reached from `s` by less than `n` arcs. -/
def Reaches (arc : V → V → Prop) (inside : List V) (s : V) (n : ℕ) (v : V) : Prop :=
  ∃ w : List V, w.length < n ∧ WalkFrom arc inside s (w ++ [v])

theorem walkFrom_concat_concat {w : List V} {u v : V} :
    WalkFrom arc inside s (w ++ [u] ++ [v]) ↔
      WalkFrom arc inside s (w ++ [u]) ∧ arc u v ∧ v ∈ inside := by
  have hhead : (w ++ [u] ++ [v]).head? = (w ++ [u]).head? := by
    rw [List.append_assoc]
    cases w <;> rfl
  constructor
  · rintro ⟨hw, hs, hsub⟩
    obtain ⟨hsub, hv⟩ := List.append_subset.mp hsub
    obtain ⟨hw, huv⟩ := isChain_concat_concat.mp hw
    exact ⟨⟨hw, hhead ▸ hs, hsub⟩, huv, hv List.mem_cons_self⟩
  · rintro ⟨⟨hw, hs, hsub⟩, huv, hv⟩
    refine ⟨isChain_concat_concat.mpr ⟨hw, huv⟩, hhead ▸ hs, List.append_subset.mpr ⟨hsub, ?_⟩⟩
    exact List.cons_subset.mpr ⟨hv, List.nil_subset _⟩

theorem walkFrom_singleton {v : V} : WalkFrom arc inside s [v] ↔ v = s ∧ s ∈ inside := by
  constructor
  · rintro ⟨-, hs, hsub⟩
    obtain rfl : v = s := Option.some.inj hs
    exact ⟨rfl, hsub List.mem_cons_self⟩
  · rintro ⟨rfl, hv⟩
    exact ⟨List.isChain_singleton v, rfl, List.cons_subset.mpr ⟨hv, List.nil_subset _⟩⟩

theorem loopFrom_concat {w : List V} {v : V} :
    LoopFrom arc inside s (w ++ [v]) ↔ WalkFrom arc inside s (w ++ [v]) ∧ arc v s := by
  constructor
  · rintro ⟨hloop, hs, hsub⟩
    obtain ⟨hchain, hvs⟩ := (isLoop_concat hs).mp hloop
    exact ⟨⟨hchain, hs, hsub⟩, hvs⟩
  · rintro ⟨⟨hchain, hs, hsub⟩, hvs⟩
    exact ⟨(isLoop_concat hs).mpr ⟨hchain, hvs⟩, hs, hsub⟩

theorem LoopFrom.exists_concat {c : List V} (h : LoopFrom arc inside s c) :
    ∃ w v, c = w ++ [v] ∧ WalkFrom arc inside s (w ++ [v]) ∧ arc v s := by
  rcases List.eq_nil_or_concat' c with rfl | ⟨w, v, rfl⟩
  · exact absurd rfl h.isLoop.1
  · exact ⟨w, v, rfl, loopFrom_concat.mp h⟩

theorem Reaches.mono {m n : ℕ} {v : V} (h : Reaches arc inside s m v) (hmn : m ≤ n) :
    Reaches arc inside s n v := by
  obtain ⟨w, hlen, hw⟩ := h
  exact ⟨w, hlen.trans_le hmn, hw⟩

theorem Reaches.step {n : ℕ} {u v : V} (h : Reaches arc inside s n u) (huv : arc u v)
    (hv : v ∈ inside) : Reaches arc inside s (n + 1) v := by
  obtain ⟨w, hlen, hw⟩ := h
  refine ⟨w ++ [u], ?_, walkFrom_concat_concat.mpr ⟨hw, huv, hv⟩⟩
  rw [List.length_append, List.length_singleton]
  omega

end Walks

/-! ## One round -/

/-- The trails of round `k` and the vertices left to meet, where no loop was found before. -/
structure Search (g : Graph) (inside : List String) (s : String) (k : ℕ) (trails : List Trail)
    (unmet : List Vertex) : Prop where
  walkFrom : ∀ t ∈ trails, WalkFrom g.Arc inside s t.nodes ∧ t.earlier.length = k
  sorted : trails.Pairwise fun t t' => places g.nodes t.nodes < places g.nodes t'.nodes
  sublist : unmet.Sublist g.vertices
  unmet_iff : ∀ v ∈ g.vertices, v ∈ unmet ↔ v.id ∈ inside ∧ ¬Reaches g.Arc inside s (k + 1) v.id
  first : ∀ w v, w.length = k → WalkFrom g.Arc inside s (w ++ [v]) →
    Reaches g.Arc inside s k v ∨
      ∃ t ∈ trails, t.last = v ∧ places g.nodes t.nodes ≤ places g.nodes (w ++ [v])
  unclosed : ∀ v, Reaches g.Arc inside s k v → ¬g.Arc v s

namespace Search
variable {g : Graph} {inside : List String} {s : String} {k : ℕ} {trails : List Trail}
  {unmet : List Vertex}

theorem start {v : Vertex} (hg : g.WellFormed) (hin : v.id ∈ inside) :
    Search g inside v.id 0 [⟨v.id, []⟩]
      ((Vertex.distinct g.vertices).filter fun w => w.id ∈ inside ∧ w.id ≠ v.id) := by
  have hreach : ∀ x, Reaches g.Arc inside v.id 1 x ↔ x = v.id := by
    intro x
    constructor
    · rintro ⟨w, hlen, hw⟩
      obtain rfl := List.eq_nil_of_length_eq_zero (Nat.lt_one_iff.mp hlen)
      exact (walkFrom_singleton.mp hw).1
    · rintro rfl
      exact ⟨[], Nat.one_pos, walkFrom_singleton.mpr ⟨rfl, hin⟩⟩
  refine ⟨?_, List.pairwise_singleton _ _, ?_, ?_, ?_, ?_⟩
  · intro t ht
    obtain rfl := List.mem_singleton.mp ht
    exact ⟨walkFrom_singleton.mpr ⟨rfl, hin⟩, rfl⟩
  · rw [Vertex.distinct_eq_self hg.nodup_nodes]
    exact List.filter_sublist
  · intro w hw
    rw [Vertex.distinct_eq_self hg.nodup_nodes, List.mem_filter, Nat.zero_add, hreach]
    simp [hw]
  · intro w x hlen hw
    obtain rfl := List.eq_nil_of_length_eq_zero hlen
    obtain ⟨rfl, -⟩ := walkFrom_singleton.mp hw
    exact .inr ⟨⟨v.id, []⟩, List.mem_cons_self, rfl, le_rfl⟩
  · rintro x ⟨w, hlen, -⟩
    exact absurd hlen (Nat.not_lt_zero _)

/-- What is reached by `k` arcs and no less is the last node of a trail. -/
theorem reaches_succ (r : Search g inside s k trails unmet) {v : String}
    (h : Reaches g.Arc inside s (k + 1) v) :
    Reaches g.Arc inside s k v ∨ ∃ t ∈ trails, t.last = v := by
  obtain ⟨w, hlen, hw⟩ := h
  rcases Nat.lt_succ_iff_lt_or_eq.mp hlen with hlt | heq
  · exact .inl ⟨w, hlt, hw⟩
  · rcases r.first w v heq hw with hreach | ⟨t, ht, hlast, -⟩
    · exact .inl hreach
    · exact .inr ⟨t, ht, hlast⟩

theorem reaches_last (r : Search g inside s k trails unmet) {t : Trail} (ht : t ∈ trails) :
    Reaches g.Arc inside s (k + 1) t.last := by
  obtain ⟨hw, hlen⟩ := r.walkFrom t ht
  refine ⟨t.earlier.reverse, ?_, t.nodes_eq ▸ hw⟩
  rw [List.length_reverse, hlen]
  exact Nat.lt_succ_self k

/-- Where no trail is closed, no loop is shorter than the next round. -/
theorem not_arc_of_reaches (r : Search g inside s k trails unmet)
    (hopen : ∀ t ∈ trails, ¬g.Arc t.last s) {v : String} (h : Reaches g.Arc inside s (k + 1) v) :
    ¬g.Arc v s := by
  rcases r.reaches_succ h with hreach | ⟨t, ht, rfl⟩
  · exact r.unclosed v hreach
  · exact hopen t ht

/-- A vertex left to meet that an arc leads to from a node met so far comes after a trail. -/
theorem exists_trail_of_arc (r : Search g inside s k trails unmet) {u : String} {v : Vertex}
    (hv : v ∈ unmet) (hu : Reaches g.Arc inside s (k + 1) u) (huv : g.Arc u v.id) :
    ∃ t ∈ trails, t.last = u := by
  obtain ⟨hin, hnot⟩ := (r.unmet_iff v (r.sublist.subset hv)).mp hv
  rcases r.reaches_succ hu with hreach | htrail
  · exact absurd (hreach.step huv hin) hnot
  · exact htrail

theorem follows_iff (hg : g.WellFormed) (r : Search g inside s k trails unmet) {v : Vertex}
    (hv : v ∈ unmet) {u : String} : v.follows u = true ↔ g.Arc u v.id :=
  hg.follows_iff_arc (r.sublist.subset hv)

theorem length_nodes (r : Search g inside s k trails unmet) {t : Trail} (ht : t ∈ trails) :
    t.nodes.length = k + 1 := by
  rw [t.nodes_eq, List.length_append, List.length_reverse, (r.walkFrom t ht).2,
    List.length_singleton]

theorem mem_extendAll_snd (hg : g.WellFormed) (r : Search g inside s k trails unmet) {v : Vertex}
    (hv : v ∈ g.vertices) : v ∈ (extendAll trails unmet).2 ↔
      v.id ∈ inside ∧ ¬Reaches g.Arc inside s (k + 1 + 1) v.id := by
  rw [extendAll_snd, List.mem_filter, Bool.not_eq_true', List.any_eq_false]
  constructor
  · rintro ⟨hvu, hnone⟩
    obtain ⟨hin, hnot⟩ := (r.unmet_iff v hv).mp hvu
    refine ⟨hin, ?_⟩
    rintro ⟨w, hlen, hw⟩
    rcases List.eq_nil_or_concat' w with rfl | ⟨w, u, rfl⟩
    · exact hnot ⟨[], Nat.succ_pos k, hw⟩
    · obtain ⟨hwu, huv, -⟩ := walkFrom_concat_concat.mp hw
      rw [List.length_append, List.length_singleton] at hlen
      obtain ⟨t, ht, rfl⟩ := r.exists_trail_of_arc hvu ⟨w, by omega, hwu⟩ huv
      exact hnone t ht ((r.follows_iff hg hvu).mpr huv)
  · rintro ⟨hin, hnot⟩
    have hvu : v ∈ unmet := (r.unmet_iff v hv).mpr ⟨hin, fun h => hnot (h.mono (Nat.le_succ _))⟩
    refine ⟨hvu, ?_⟩
    intro t ht hvt
    exact hnot ((r.reaches_last ht).step ((r.follows_iff hg hvu).mp hvt) hin)

/-- A walk of the next round to a node that less arcs do not reach has a trail to the same node that
is not behind it. -/
theorem exists_mem_extendAll_fst (hg : g.WellFormed) (r : Search g inside s k trails unmet)
    {w : List String} {v : String} (hlen : w.length = k + 1)
    (hw : WalkFrom g.Arc inside s (w ++ [v])) (hreach : ¬Reaches g.Arc inside s (k + 1) v) :
    ∃ t ∈ (extendAll trails unmet).1, t.last = v ∧
      places g.nodes t.nodes ≤ places g.nodes (w ++ [v]) := by
  rcases List.eq_nil_or_concat' w with rfl | ⟨w, u, rfl⟩
  · exact absurd hlen (Nat.succ_ne_zero k).symm
  · rw [List.length_append, List.length_singleton] at hlen
    obtain ⟨hwu, huv, hin⟩ := walkFrom_concat_concat.mp hw
    obtain ⟨x, hx, rfl⟩ := mem_nodes.mp huv.target_mem
    have hxu : x ∈ unmet := (r.unmet_iff x hx).mpr ⟨hin, hreach⟩
    rcases r.first w u (by omega) hwu with hu | ⟨t, ht, rfl, hle⟩
    · exact absurd (hu.step huv hin) hreach
    · obtain ⟨t₁, ht₁, hor, hmem⟩ :=
        exists_mem_extendAll r.sorted ht hxu ((r.follows_iff hg hxu).mpr huv)
      have hle₁ : places g.nodes t₁.nodes ≤ places g.nodes (w ++ [t.last]) := by
        rcases hor with rfl | hlt
        · exact hle
        · exact hlt.le.trans hle
      refine ⟨_, hmem, rfl, ?_⟩
      rw [Trail.nodes_extend, places_append, places_append g.nodes (w ++ [t.last])]
      refine append_le_append hle₁ ?_ _
      rw [length_places, length_places, r.length_nodes ht₁, List.length_append,
        List.length_singleton]
      omega

theorem next (hg : g.WellFormed) (r : Search g inside s k trails unmet)
    (hopen : ∀ t ∈ trails, ¬g.Arc t.last s) :
    Search g inside s (k + 1) (extendAll trails unmet).1 (extendAll trails unmet).2 := by
  refine ⟨?_, ?_, ?_, fun v hv => r.mem_extendAll_snd hg hv, ?_,
    fun v hv => r.not_arc_of_reaches hopen hv⟩
  · intro t' ht'
    obtain ⟨t, ht, v, hv, hvt, rfl⟩ := mem_extendAll ht'
    obtain ⟨hw, hk⟩ := r.walkFrom t ht
    obtain ⟨hin, -⟩ := (r.unmet_iff v (r.sublist.subset hv)).mp hv
    refine ⟨?_, congrArg (· + 1) hk⟩
    rw [t.nodes_eq] at hw
    rw [t.nodes_extend, t.nodes_eq]
    exact walkFrom_concat_concat.mpr ⟨hw, (r.follows_iff hg hv).mp hvt, hin⟩
  · have hplaces := pairwise_idxOf hg.nodup_nodes (r.sublist.map (·.id))
    rw [List.pairwise_map] at hplaces
    exact pairwise_extendAll r.sorted (fun t ht => r.length_nodes ht) hplaces
  · rw [extendAll_snd]
    exact List.filter_sublist.trans r.sublist
  · intro w v hlen hw
    by_cases hreach : Reaches g.Arc inside s (k + 1) v
    · exact .inl hreach
    · exact .inr (r.exists_mem_extendAll_fst hg hlen hw hreach)

/-- Once no trail can be extended, all that is ever reached has been reached. -/
theorem reaches_of_extendAll_eq_nil (hg : g.WellFormed) (r : Search g inside s k trails unmet)
    (hnil : (extendAll trails unmet).1 = []) {w : List String} {v : String}
    (hw : WalkFrom g.Arc inside s (w ++ [v])) : Reaches g.Arc inside s (k + 1) v := by
  induction hn : w.length generalizing w v with
  | zero => exact ⟨w, by omega, hw⟩
  | succ n ih =>
    rcases List.eq_nil_or_concat' w with rfl | ⟨w, u, rfl⟩
    · exact absurd hn (Nat.succ_ne_zero n).symm
    · obtain ⟨hwu, huv, hin⟩ := walkFrom_concat_concat.mp hw
      rw [List.length_append, List.length_singleton] at hn
      by_contra hnot
      obtain ⟨x, hx, rfl⟩ := mem_nodes.mp huv.target_mem
      have hxu : x ∈ unmet := (r.unmet_iff x hx).mpr ⟨hin, hnot⟩
      obtain ⟨t, ht, rfl⟩ := r.exists_trail_of_arc hxu (ih hwu (by omega)) huv
      obtain ⟨t₁, -, -, hmem⟩ :=
        exists_mem_extendAll r.sorted ht hxu ((r.follows_iff hg hxu).mpr huv)
      rw [hnil] at hmem
      exact List.not_mem_nil hmem

end Search

/-! ## All rounds -/

/-- The first loop from `s` among the shortest. -/
structure IsFirstLoop (g : Graph) (inside : List String) (s : String) (c : List String) : Prop where
  loopFrom : LoopFrom g.Arc inside s c
  length_le : ∀ d, LoopFrom g.Arc inside s d → c.length ≤ d.length
  places_le : ∀ d, LoopFrom g.Arc inside s d → d.length = c.length →
    places g.nodes c ≤ places g.nodes d

/-- What a search from `s` tells: the first of the shortest loops, or that there is no loop. -/
def Settles (g : Graph) (inside : List String) (s : String) : Option (List String) → Prop
  | some c => IsFirstLoop g inside s c
  | none => ∀ c, ¬LoopFrom g.Arc inside s c

namespace Search
variable {g : Graph} {inside : List String} {start : Vertex} {k : ℕ} {trails : List Trail}
  {unmet : List Vertex}

/-- The first trail that is closed is the first of the shortest loops. -/
theorem isFirstLoop (hg : g.WellFormed) (hstart : start ∈ g.vertices)
    (r : Search g inside start.id k trails unmet) {t : Trail}
    (ht : trails.find? (fun t => start.follows t.last) = some t) :
    IsFirstLoop g inside start.id t.nodes := by
  obtain ⟨hclosed, before, after, htrails, hopen⟩ := List.find?_eq_some_iff_append.mp ht
  have hmem : t ∈ trails := htrails ▸ List.mem_append_right before List.mem_cons_self
  -- A shorter loop would have been closed in an earlier round. A loop of the same length is not
  -- before some trail of this round, which is closed as well and so not before `t`.
  have hlater : ∀ d, LoopFrom g.Arc inside start.id d →
      t.nodes.length ≤ d.length ∧
        (d.length = t.nodes.length → places g.nodes t.nodes ≤ places g.nodes d) := by
    intro d hd
    obtain ⟨w, v, rfl, hw, hv⟩ := hd.exists_concat
    have hlen : ¬w.length < k := fun h => r.unclosed v ⟨w, h, hw⟩ hv
    rw [r.length_nodes hmem, List.length_append, List.length_singleton]
    refine ⟨by omega, fun heq => ?_⟩
    rcases r.first w v (by omega) hw with hreach | ⟨t₁, ht₁, rfl, hle⟩
    · exact absurd hv (r.unclosed v hreach)
    · have hclosed₁ : start.follows t₁.last = true := (hg.follows_iff_arc hstart).mpr hv
      have hsorted := r.sorted
      rw [htrails] at hsorted ht₁
      rcases List.mem_append.mp ht₁ with hbefore | hafter
      · exact absurd hclosed₁ (by simpa using hopen t₁ hbefore)
      · rcases List.mem_cons.mp hafter with rfl | hafter
        · exact hle
        · have hlt := (List.pairwise_cons.mp (List.pairwise_append.mp hsorted).2.1).1 t₁ hafter
          exact hlt.le.trans hle
  refine ⟨?_, fun d hd => (hlater d hd).1, fun d hd => (hlater d hd).2⟩
  obtain ⟨hw, -⟩ := r.walkFrom t hmem
  rw [t.nodes_eq] at hw ⊢
  exact loopFrom_concat.mpr ⟨hw, (hg.follows_iff_arc hstart).mp hclosed⟩

theorem settles_closeFrom (hg : g.WellFormed) (hstart : start ∈ g.vertices)
    (r : Search g inside start.id k trails unmet) :
    Settles g inside start.id (closeFrom start trails unmet) := by
  have hnot : ∀ {trails : List Trail}, trails.find? (fun t => start.follows t.last) = none →
      ∀ t ∈ trails, ¬g.Arc t.last start.id := by
    intro trails hnone t ht harc
    exact List.find?_eq_none.mp hnone t ht ((hg.follows_iff_arc hstart).mpr harc)
  fun_induction closeFrom start trails unmet generalizing k with
  | case1 trails unmet t ht => exact r.isFirstLoop hg hstart ht
  | case2 trails unmet hnone hnil =>
    intro c hc
    obtain ⟨w, v, rfl, hw, hv⟩ := hc.exists_concat
    exact r.not_arc_of_reaches (hnot hnone) (r.reaches_of_extendAll_eq_nil hg hnil hw) hv
  | case3 trails unmet hnone hmore ih => exact ih (r.next hg (hnot hnone))

end Search

theorem settles_cycleThrough {g : Graph} (hg : g.WellFormed) {candidates : List String}
    {start : Vertex} (hstart : start ∈ g.vertices) (hin : start.id ∈ candidates) :
    Settles g candidates start.id (g.cycleThrough? candidates start) :=
  (Search.start hg hin).settles_closeFrom hg hstart

/-- The shortest loops from a node visit no node twice. -/
theorem IsFirstLoop.isCycle {g : Graph} {inside : List String} {s : String} {c : List String}
    (h : IsFirstLoop g inside s c) : IsCycle g.Arc c := by
  refine ⟨?_, h.loopFrom.isLoop⟩
  by_contra hdup
  obtain ⟨d, hd, hhead, hsub, hlt⟩ := h.loopFrom.isLoop.exists_shorter hdup
  have hfrom : LoopFrom g.Arc inside s d :=
    ⟨hd, hhead.trans h.loopFrom.head?_eq, fun _ hv => h.loopFrom.subset (hsub hv)⟩
  exact absurd (h.length_le d hfrom) (not_le.mpr hlt)

end ProjectComposer.Graph
