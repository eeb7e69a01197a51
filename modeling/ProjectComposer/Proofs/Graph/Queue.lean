import ProjectComposer.Graph.Queue
import ProjectComposer.Proofs.Graph.Search

/-!
The queue against the rounds. The queue holds the ends of the trails of a round that are not looked
at yet and then those of the next round so far, and the parents lead back along each of these
trails: a node is met once, so its parent stays. So following parents ends after as many steps as
the trail has nodes, and looking at all nodes of a round makes the next round. What the search in
rounds finds from a start, the loop over the queue finds, and it comes to an end.
-/
set_option autoImplicit false

/-! ## Loops -/

namespace Part
variable {ε σ α : Type} {turn : σ → Attempt ε (α ⊕ σ)} {s s' : σ}

/-- A computation that has a value is an attempt that ends with it. -/
theorem liftM_ok (a : α) : (liftM (Except.ok a : Except ε α) : Attempt ε α) = pure a := rfl

theorem loop_of_last {a : α} (h : turn s = pure (.inl a)) : loop turn s = pure a := by
  have hstop : Sum.inl (.ok a) ∈ (turn s).run.map lastTurn := by
    rw [h]
    exact Part.mem_map lastTurn (Part.mem_some _)
  exact Part.eq_some_iff.mpr (PFun.fix_stop hstop)

theorem loop_of_next (h : turn s = pure (.inr s')) : loop turn s = loop turn s' := by
  have hnext : Sum.inr s' ∈ (turn s).run.map lastTurn := by
    rw [h]
    exact Part.mem_map lastTurn (Part.mem_some _)
  exact PFun.fix_fwd_eq hnext

end Part

namespace ProjectComposer.Graph

/-! ## Parents -/

/-- The parents lead from a node over the earlier ones, the last of them first, to the start. -/
inductive LeadsBack (parents : Table String) (s : String) : String → List String → Prop
  | start : LeadsBack parents s s []
  | next {u p : String} {earlier : List String} : u ≠ s → parents.get? u = some p →
      LeadsBack parents s p earlier → LeadsBack parents s u (p :: earlier)

section Parents
variable {parents parents' : Table String} {s u : String} {earlier : List String}

theorem LeadsBack.loop_eq (h : LeadsBack parents s u earlier) (after : List String) :
    Part.loop (stepBack parents s) (u, after) = pure (earlier.reverse ++ u :: after) := by
  induction h generalizing after with
  | start => exact Part.loop_of_last (if_pos rfl)
  | @next u p earlier hne hparent _ ih =>
    have hturn : stepBack parents s (u, after) = pure (.inr (p, u :: after)) := by
      rw [stepBack, if_neg hne, parentOf, hparent]
      exact pure_bind p _
    rw [Part.loop_of_next hturn, ih, List.reverse_cons, List.append_assoc, List.singleton_append]

theorem LeadsBack.wayBack_eq (h : LeadsBack parents s u earlier) :
    wayBack parents s u = pure (earlier.reverse ++ [u]) :=
  h.loop_eq []

theorem LeadsBack.congr (h : LeadsBack parents s u earlier)
    (heq : ∀ x ∈ u :: earlier, parents'.get? x = parents.get? x) :
    LeadsBack parents' s u earlier := by
  induction h with
  | start => exact .start
  | next hne hparent _ ih =>
    obtain ⟨hu, hearlier⟩ := List.forall_mem_cons.mp heq
    exact .next hne (hu.trans hparent) (ih hearlier)

end Parents

/-! ## Looking at a node -/

theorem nodup_targetsOf {g : Graph} (hg : g.WellFormed) (candidates : List String) (u : String) :
    (g.targetsOf candidates u).Nodup := by
  rw [targetsOf, Vertex.distinct_eq_self hg.nodup_nodes]
  exact hg.nodup_nodes.sublist (List.filter_sublist.map _)

theorem WellFormed.id_mem_map_filter {g : Graph} (hg : g.WellFormed) {vs : List Vertex}
    (hvs : vs ⊆ g.vertices) (p : Vertex → Bool) {v : Vertex} (hv : v ∈ g.vertices) :
    v.id ∈ (vs.filter p).map (·.id) ↔ v ∈ vs ∧ p v = true := by
  rw [List.mem_map]
  constructor
  · rintro ⟨w, hw, hid⟩
    obtain ⟨hw, hp⟩ := List.mem_filter.mp hw
    obtain rfl := hg.vertex_ext (hvs hw) hv hid
    exact ⟨hw, hp⟩
  · intro h
    exact ⟨v, List.mem_filter.mpr h, rfl⟩

theorem mem_targetsOf {g : Graph} (hg : g.WellFormed) {candidates : List String} {u : String}
    {v : Vertex} (hv : v ∈ g.vertices) (hin : v.id ∈ candidates) :
    v.id ∈ g.targetsOf candidates u ↔ v.follows u = true := by
  rw [targetsOf, Vertex.distinct_eq_self hg.nodup_nodes,
    hg.id_mem_map_filter (List.Subset.refl _) _ hv]
  simp [hv, hin]

namespace Frontier
variable {f : Frontier} {s u : String} {vs : List String}

/-- The frontier once more nodes are met from one node. -/
def meeting (f : Frontier) (u : String) (fresh : List String) : Frontier :=
  ⟨f.queue ++ fresh, f.met ++ fresh, fresh.foldl (fun t v => t.put v u) f.parents⟩

theorem get?_parents_meeting (f : Frontier) (u : String) (fresh : List String) (x : String) :
    (f.meeting u fresh).parents.get? x = if x ∈ fresh then some u else f.parents.get? x := by
  induction fresh generalizing f with
  | nil => rw [if_neg List.not_mem_nil]; rfl
  | cons v fresh ih =>
    have hput := ih ⟨f.queue, f.met, f.parents.put v u⟩
    change _ = if x ∈ fresh then some u else (f.parents.put v u).get? x at hput
    change (meeting ⟨f.queue, f.met, f.parents.put v u⟩ u fresh).parents.get? x = _
    rw [hput, Table.get?_put]
    by_cases hx : x ∈ fresh
    · simp [hx]
    · simp [hx, eq_comm]

/-- Targets other than the start are met one after the other, those met before apart. -/
theorem meetFrom_append (hs : s ∉ vs) (hvs : vs.Nodup) (more : List String) (f : Frontier) :
    meetFrom s u (vs ++ more) f =
      meetFrom s u more (f.meeting u (vs.filter fun v => v ∉ f.met)) := by
  induction vs generalizing f with
  | nil => simp [meeting]
  | cons v vs ih =>
    obtain ⟨hv, hvs⟩ := List.nodup_cons.mp hvs
    obtain ⟨hne, hs⟩ := List.ne_and_not_mem_of_not_mem_cons hs
    rw [List.cons_append, meetFrom, if_neg (Ne.symm hne)]
    split
    · next hmet => rw [ih hs hvs, List.filter_cons_of_neg (by simpa using hmet)]
    · next hmet =>
      have hfresh : (vs.filter fun x => x ∉ f.met ++ [v]) = vs.filter fun x => x ∉ f.met := by
        apply List.filter_congr
        intro x hx
        have hxv : x ≠ v := fun h => hv (h ▸ hx)
        simp [hxv]
      rw [ih hs hvs, List.filter_cons_of_pos (by simpa using hmet), hfresh]
      simp [meeting]

theorem meetFrom_of_not_mem (hs : s ∉ vs) (hvs : vs.Nodup) (f : Frontier) :
    meetFrom s u vs f = (f.meeting u (vs.filter fun v => v ∉ f.met), false) := by
  have h := meetFrom_append hs hvs [] f (u := u)
  rwa [List.append_nil] at h

/-- A start among the targets is found, and what is met in front of it has not been met before. -/
theorem meetFrom_of_mem (hs : s ∈ vs) (hvs : vs.Nodup) (f : Frontier) :
    ∃ fresh, (∀ v ∈ fresh, v ∉ f.met) ∧ meetFrom s u vs f = (f.meeting u fresh, true) := by
  obtain ⟨front, back, rfl⟩ := List.append_of_mem hs
  obtain ⟨hfront, -, hapart⟩ := List.nodup_append.mp hvs
  have hnot : s ∉ front := fun h => hapart s h s List.mem_cons_self rfl
  refine ⟨front.filter fun v => v ∉ f.met, fun v hv => by simpa using (List.mem_filter.mp hv).2, ?_⟩
  rw [meetFrom_append hnot hfront, meetFrom, if_pos rfl]

end Frontier

/-! ## The queue and the rounds -/

/-- A frontier in whose queue stand the ends of trails: their parents lead back along the trails,
and the candidates that are not met are those left to meet. -/
structure Frontier.Carries (g : Graph) (candidates : List String) (s : String) (f : Frontier)
    (trails : List Trail) (unmet : List Vertex) : Prop where
  queue_eq : f.queue = trails.map (·.last)
  unmet_eq : unmet = g.vertices.filter fun v => v.id ∈ candidates ∧ v.id ∉ f.met
  start_met : s ∈ f.met
  last_mem : ∀ t ∈ trails, t.last ∈ g.nodes
  nodes_met : ∀ t ∈ trails, t.last :: t.earlier ⊆ f.met
  leadsBack : ∀ t ∈ trails, LeadsBack f.parents s t.last t.earlier

theorem Frontier.carries_start {g : Graph} (candidates : List String) {s : String}
    (hs : s ∈ g.nodes) : (Frontier.start s).Carries g candidates s [⟨s, []⟩]
      (g.vertices.filter fun v => v.id ∈ candidates ∧ v.id ≠ s) where
  queue_eq := rfl
  unmet_eq := by simp [Frontier.start]
  start_met := List.mem_singleton.mpr rfl
  last_mem := by simpa using hs
  nodes_met := by simp [Frontier.start]
  leadsBack := by simpa using LeadsBack.start

namespace Frontier.Carries
variable {g : Graph} {candidates : List String} {s : String} {f : Frontier} {t : Trail}
  {trails more : List Trail} {unmet : List Vertex} {start : Vertex}

/-- Meeting nodes for the first time leaves the parents of the others alone. -/
theorem leadsBack_meeting (h : f.Carries g candidates s trails unmet) {u : String}
    {fresh : List String} (hfresh : ∀ v ∈ fresh, v ∉ f.met) (ht : t ∈ trails) :
    LeadsBack (f.meeting u fresh).parents s t.last t.earlier := by
  refine (h.leadsBack t ht).congr fun x hx => ?_
  have hx' : x ∉ fresh := fun hm => hfresh x hm (h.nodes_met t ht hx)
  rw [get?_parents_meeting, if_neg hx']

theorem closeByQueue_nil (h : f.Carries g candidates s [] unmet) :
    closeByQueue (g.targets candidates) s f = pure none := by
  obtain ⟨queue, met, parents⟩ := f
  obtain rfl : queue = [] := h.queue_eq
  exact Part.loop_of_last rfl

theorem look_eq (h : f.Carries g candidates s (t :: trails) unmet) :
    look (g.targets candidates) s f =
      let next := meetFrom s t.last (g.targetsOf candidates t.last)
        { f with queue := trails.map (·.last) }
      if next.2 then do return .inl (some (← wayBack next.1.parents s t.last))
      else pure (.inr next.1) := by
  obtain ⟨queue, met, parents⟩ := f
  obtain rfl : queue = t.last :: trails.map (·.last) := h.queue_eq
  rw [look, targets, if_pos (h.last_mem t List.mem_cons_self), pure_bind]

/-- A trail at the front of the queue that an arc closes is what the search finds. -/
theorem closes (hg : g.WellFormed) (hstart : start ∈ g.vertices) (hin : start.id ∈ candidates)
    (h : f.Carries g candidates start.id (t :: trails) unmet) (ht : start.follows t.last = true) :
    closeByQueue (g.targets candidates) start.id f = pure (some t.nodes) := by
  have hmem := (mem_targetsOf hg hstart hin).mpr ht
  obtain ⟨fresh, hfresh, hmeet⟩ := meetFrom_of_mem (u := t.last) hmem
    (nodup_targetsOf hg candidates t.last) { f with queue := trails.map (·.last) }
  have hback : LeadsBack (meeting { f with queue := trails.map (·.last) } t.last fresh).parents
      start.id t.last t.earlier := h.leadsBack_meeting hfresh List.mem_cons_self
  refine Part.loop_of_last ?_
  rw [h.look_eq, hmeet]
  dsimp only
  rw [if_pos rfl, hback.wayBack_eq, pure_bind, t.nodes_eq]

/-- The nodes first met from a trail's end are the vertices left to meet that an arc leads to. -/
theorem fresh_eq (hg : g.WellFormed) (h : f.Carries g candidates s trails unmet) (u : String) :
    (g.targetsOf candidates u).filter (fun v => v ∉ f.met) =
      (unmet.filter fun v => v.follows u).map (·.id) := by
  rw [targetsOf, Vertex.distinct_eq_self hg.nodup_nodes, List.filter_map, List.filter_filter,
    h.unmet_eq, List.filter_filter]
  congr 1
  apply List.filter_congr
  intro v _
  simp only [Function.comp_apply, Bool.decide_and, decide_not, Bool.decide_eq_true]
  ac_rfl

theorem mem_unmet_iff (h : f.Carries g candidates s trails unmet) {v : Vertex} :
    v ∈ unmet ↔ v ∈ g.vertices ∧ v.id ∈ candidates ∧ v.id ∉ f.met := by
  rw [h.unmet_eq, List.mem_filter, decide_eq_true_iff]

theorem unmet_subset (h : f.Carries g candidates s trails unmet) : unmet ⊆ g.vertices :=
  fun _ hv => (h.mem_unmet_iff.mp hv).1

/-- Looking at a node leaves those candidates unmet that no arc leads to from it. -/
theorem unmet_meeting (hg : g.WellFormed) (h : f.Carries g candidates s trails unmet) (u : String) :
    (unmet.filter fun v => !v.follows u) = g.vertices.filter fun v => v.id ∈ candidates ∧
      v.id ∉ f.met ++ (unmet.filter fun v => v.follows u).map (·.id) := by
  conv_lhs => rw [h.unmet_eq, List.filter_filter]
  apply List.filter_congr
  intro v hv
  have hfresh := hg.id_mem_map_filter h.unmet_subset (fun v => v.follows u) hv
  rw [h.mem_unmet_iff] at hfresh
  rw [Bool.eq_iff_iff]
  simp only [List.mem_append, hfresh, Bool.and_eq_true, Bool.not_eq_true', decide_eq_true_eq]
  cases v.follows u
  · simp
  · simp only [Bool.true_eq_false, false_and, false_iff]
    tauto

/-- Once a node is looked at, its trail is gone from the front of the queue, and what it is extended
to stands at the end. -/
theorem extend (hg : g.WellFormed) (h : f.Carries g candidates s (t :: trails) unmet) :
    (meeting { f with queue := trails.map (·.last) } t.last
      ((unmet.filter fun v => v.follows t.last).map (·.id))).Carries g candidates s
      (trails ++ (unmet.filter fun v => v.follows t.last).map t.extend)
      (unmet.filter fun v => !v.follows t.last) := by
  have hfresh : ∀ x ∈ (unmet.filter fun v => v.follows t.last).map (·.id), x ∉ f.met := by
    intro x hx
    obtain ⟨v, hv, rfl⟩ := List.mem_map.mp hx
    exact (h.mem_unmet_iff.mp (List.mem_filter.mp hv).1).2.2
  have hmet := h.nodes_met t List.mem_cons_self
  refine ⟨?queue, h.unmet_meeting hg t.last, List.mem_append_left _ h.start_met, ?last, ?met,
    ?parents⟩
  case queue => simp [meeting, Trail.extend, Function.comp_def]
  case last =>
    refine List.forall_mem_append.mpr ⟨fun t' ht' => h.last_mem t' (List.mem_cons_of_mem t ht'), ?_⟩
    rw [List.forall_mem_map]
    exact fun v hv => id_mem_nodes (h.unmet_subset (List.mem_filter.mp hv).1)
  case met =>
    refine List.forall_mem_append.mpr ⟨fun t' ht' => ?_, List.forall_mem_map.mpr fun v hv => ?_⟩
    · exact List.subset_append_of_subset_left _ (h.nodes_met t' (List.mem_cons_of_mem t ht'))
    · exact List.cons_subset.mpr ⟨List.mem_append_right _ (List.mem_map_of_mem hv),
        List.subset_append_of_subset_left _ hmet⟩
  case parents =>
    refine List.forall_mem_append.mpr ⟨fun t' ht' => ?_, List.forall_mem_map.mpr fun v hv => ?_⟩
    · exact h.leadsBack_meeting hfresh (List.mem_cons_of_mem t ht')
    · have hid : v.id ∈ (unmet.filter fun v => v.follows t.last).map (·.id) :=
        List.mem_map_of_mem hv
      have hne : v.id ≠ s := fun heq => hfresh v.id hid (heq ▸ h.start_met)
      refine .next hne ?_ (h.leadsBack_meeting hfresh List.mem_cons_self)
      rw [get?_parents_meeting]
      exact if_pos hid

/-- A trail at the front of the queue that no arc closes is extended, and the search goes on. -/
theorem goesOn (hg : g.WellFormed) (hstart : start ∈ g.vertices) (hin : start.id ∈ candidates)
    (h : f.Carries g candidates start.id (t :: trails) unmet) (ht : ¬start.follows t.last = true) :
    ∃ f', closeByQueue (g.targets candidates) start.id f =
        closeByQueue (g.targets candidates) start.id f' ∧
      f'.Carries g candidates start.id
        (trails ++ (unmet.filter fun v => v.follows t.last).map t.extend)
        (unmet.filter fun v => !v.follows t.last) := by
  refine ⟨_, Part.loop_of_next ?_, h.extend hg⟩
  have hnot := mt (mem_targetsOf hg hstart hin).mp ht
  rw [h.look_eq, meetFrom_of_not_mem hnot (nodup_targetsOf hg candidates t.last), h.fresh_eq hg]
  dsimp only
  rw [if_neg Bool.false_ne_true]

/-- Trails that no arc closes are extended in turn, behind those that are in the queue already. -/
theorem passes (hg : g.WellFormed) (hstart : start ∈ g.vertices) (hin : start.id ∈ candidates)
    (h : f.Carries g candidates start.id (trails ++ more) unmet)
    (hopen : ∀ t ∈ trails, ¬start.follows t.last = true) :
    ∃ f', closeByQueue (g.targets candidates) start.id f =
        closeByQueue (g.targets candidates) start.id f' ∧
      f'.Carries g candidates start.id (more ++ (extendAll trails unmet).1)
        (extendAll trails unmet).2 := by
  induction trails generalizing f more unmet with
  | nil => exact ⟨f, rfl, by simpa [extendAll] using h⟩
  | cons t trails ih =>
    obtain ⟨ht, hopen⟩ := List.forall_mem_cons.mp hopen
    rw [List.cons_append] at h
    obtain ⟨f₁, hf₁, h₁⟩ := h.goesOn hg hstart hin ht
    rw [List.append_assoc] at h₁
    obtain ⟨f₂, hf₂, h₂⟩ := ih h₁ hopen
    rw [List.append_assoc] at h₂
    exact ⟨f₂, hf₁.trans hf₂, h₂⟩

/-- A round without a closed trail is passed as a whole. -/
theorem nextRound (hg : g.WellFormed) (hstart : start ∈ g.vertices) (hin : start.id ∈ candidates)
    (h : f.Carries g candidates start.id trails unmet)
    (hnone : trails.find? (fun t => start.follows t.last) = none) :
    ∃ f', closeByQueue (g.targets candidates) start.id f =
        closeByQueue (g.targets candidates) start.id f' ∧
      f'.Carries g candidates start.id (extendAll trails unmet).1 (extendAll trails unmet).2 := by
  rw [← List.append_nil trails] at h
  exact h.passes hg hstart hin fun t ht => List.find?_eq_none.mp hnone t ht

/-- From any round on, the queue finds what the rounds find. -/
theorem closeByQueue_eq_closeFrom (hg : g.WellFormed) (hstart : start ∈ g.vertices)
    (hin : start.id ∈ candidates) (h : f.Carries g candidates start.id trails unmet) :
    closeByQueue (g.targets candidates) start.id f = pure (closeFrom start trails unmet) := by
  -- In the round that ends the search, the trails in front of the closed one are passed first.
  fun_induction closeFrom start trails unmet generalizing f with
  | case1 trails unmet t ht =>
    obtain ⟨hclosed, before, after, rfl, hopen⟩ := List.find?_eq_some_iff_append.mp ht
    obtain ⟨f', hf', h'⟩ := h.passes hg hstart hin fun t' ht' => by simpa using hopen t' ht'
    rw [hf']
    exact h'.closes hg hstart hin hclosed
  | case2 trails unmet hnone hnil =>
    obtain ⟨f', hf', h'⟩ := h.nextRound hg hstart hin hnone
    rw [hnil] at h'
    rw [hf', h'.closeByQueue_nil]
  | case3 trails unmet hnone hmore ih =>
    obtain ⟨f', hf', h'⟩ := h.nextRound hg hstart hin hnone
    rw [hf']
    exact ih h'

end Frontier.Carries

/-- From the start on, the queue finds what the rounds find. -/
theorem closeByQueue_start {g : Graph} (hg : g.WellFormed) {candidates : List String}
    {start : Vertex} (hstart : start ∈ g.vertices) (hin : start.id ∈ candidates) :
    closeByQueue (g.targets candidates) start.id (.start start.id) =
      pure (g.cycleThrough? candidates start) := by
  rw [cycleThrough?, Vertex.distinct_eq_self hg.nodup_nodes]
  exact (Frontier.carries_start candidates (id_mem_nodes hstart)).closeByQueue_eq_closeFrom hg
    hstart hin

end ProjectComposer.Graph
