import ProjectComposer.Execution.Inputs
import ProjectComposer.Proofs.Except
import ProjectComposer.Proofs.Table

/-!
What is visible to a node and what its slots list, in terms of the blueprint alone. A slot lists the
visible nodes among its sources, each once and at its first place: first the sources of the edges
into the slot, then, need by need, the nodes of the kind of a need that leads there.
-/
namespace ProjectComposer
set_option autoImplicit false

/-! ## First places -/

namespace Job

theorem mem_distinct {a : String} {l : List String} : a ∈ distinct l ↔ a ∈ l := by
  induction l with
  | nil => simp [distinct]
  | cons b l ih =>
    by_cases h : a = b
    · simp [distinct, h]
    · simp [distinct, h, ih]

theorem nodup_distinct (l : List String) : (distinct l).Nodup := by
  induction l with
  | nil => exact List.nodup_nil
  | cons a l ih =>
    refine List.nodup_cons.mpr ⟨?_, ih.filter _⟩
    simp

theorem distinct_eq_nil {l : List String} : distinct l = [] ↔ l = [] := by
  cases l <;> simp [distinct]

theorem distinct_filter (p : String → Bool) (l : List String) :
    distinct (l.filter p) = (distinct l).filter p := by
  induction l with
  | nil => rfl
  | cons a l ih =>
    by_cases h : p a = true
    · rw [List.filter_cons_of_pos h, distinct, ih, distinct, List.filter_cons_of_pos h,
        List.filter_filter, List.filter_filter]
      simp only [Bool.and_comm]
    · rw [List.filter_cons_of_neg h, ih, distinct, List.filter_cons_of_neg h, List.filter_filter]
      refine List.filter_congr fun b _ => ?_
      by_cases hb : b = a
      · simp [hb, h]
      · simp [hb]

/-- One more member comes last, unless it has its place already. -/
theorem distinct_concat (l : List String) (a : String) :
    distinct (l ++ [a]) = if a ∈ l then distinct l else distinct l ++ [a] := by
  induction l with
  | nil => rfl
  | cons b l ih =>
    rw [List.cons_append, distinct, ih, distinct]
    by_cases hab : a = b
    · subst hab
      rw [if_pos List.mem_cons_self]
      split
      · rfl
      · simp
    · by_cases hmem : a ∈ l
      · rw [if_pos hmem, if_pos (List.mem_cons_of_mem b hmem)]
      · rw [if_neg hmem, if_neg (List.not_mem_cons_of_ne_of_not_mem hab hmem)]
        simp [hab]

theorem pairwise_idxOf_distinct (l : List String) :
    (distinct l).Pairwise fun a b => l.idxOf a < l.idxOf b := by
  induction l with
  | nil => exact List.Pairwise.nil
  | cons a l ih =>
    have hplace {b : String} (hb : b ∈ (distinct l).filter fun b => b ≠ a) :
        (a :: l).idxOf b = l.idxOf b + 1 := by
      refine List.idxOf_cons_ne l fun h => ?_
      simp [h] at hb
    refine List.pairwise_cons.mpr ⟨fun b hb => ?_, ?_⟩
    · rw [hplace hb, List.idxOf_cons_self]
      exact Nat.succ_pos _
    · refine (ih.filter _).imp_of_mem fun hb hc hbc => ?_
      rw [hplace hb, hplace hc]
      exact Nat.succ_lt_succ hbc

end Job

/-! ## Sources -/

namespace Blueprint

/-- The sources of the edges into a slot of a node. -/
def edgeSources (b : Blueprint) (node slot : String) : List String :=
  (b.edges.filter fun e => e.target = ⟨node, slot⟩).map (·.source.node)

/-- The nodes of the kinds of the needs that lead to a slot. -/
def needSources (b : Blueprint) (p : Plugin) (slot : String) : List String :=
  p.needs.flatMap fun need =>
    (need.slots.filter fun s => s.2 = slot).flatMap fun _ =>
      (b.nodes.filter fun m => m.kind = need.kind).map (·.id)

/-- All that may feed a slot of a node, in the order in which the slot takes it. -/
def sources (b : Blueprint) (node : String) (p : Plugin) (slot : String) : List String :=
  b.edgeSources node slot ++ b.needSources p slot

theorem mem_edgeSources {b : Blueprint} {node slot u : String} :
    u ∈ b.edgeSources node slot ↔
      ∃ e ∈ b.edges, e.target = ⟨node, slot⟩ ∧ e.source.node = u := by
  simp [edgeSources, and_assoc]

theorem mem_needSources {b : Blueprint} {p : Plugin} {slot u : String} :
    u ∈ b.needSources p slot ↔ ∃ need ∈ p.needs, (∃ s ∈ need.slots, s.2 = slot) ∧
      ∃ m ∈ b.nodes, m.kind = need.kind ∧ m.id = u := by
  simp only [needSources, List.mem_flatMap, List.mem_filter, List.mem_map, decide_eq_true_eq,
    and_assoc]
  refine exists_congr fun need => and_congr_right fun _ => ?_
  constructor
  · rintro ⟨s, hs, hslot, hm⟩
    exact ⟨⟨s, hs, hslot⟩, hm⟩
  · rintro ⟨⟨s, hs, hslot⟩, hm⟩
    exact ⟨s, hs, hslot, hm⟩

end Blueprint

/-! ## Visible outputs -/

namespace Job
variable {j : Job} {n : Node} {p : Plugin} {finished seen : Table Output}

theorem wants_iff {kind : String} :
    wants p kind = true ↔ ∃ need ∈ p.optionalNeeds, need.kind = kind := by
  simp [wants]

theorem mem_visible {u : String} {o : Output} : (u, o) ∈ j.visible n p finished ↔
    u ∈ j.accepted.graph.nodes ∧ j.mayShow n p u = true ∧ finished.get? u = some o := by
  unfold visible
  rw [List.mem_filterMap]
  constructor
  · rintro ⟨id, hid, h⟩
    split at h
    · next hshow =>
      obtain ⟨o', ho', hsame⟩ := Option.map_eq_some_iff.mp h
      cases hsame
      exact ⟨hid, hshow, ho'⟩
    · cases h
  · rintro ⟨hid, hshow, ho⟩
    exact ⟨u, hid, by rw [if_pos hshow, ho]; rfl⟩

theorem keys_visible : (j.visible n p finished).keys =
    j.accepted.graph.nodes.filter fun u => j.mayShow n p u && finished.has u := by
  unfold visible Table.keys
  rw [List.map_filterMap, ← List.filterMap_eq_filter]
  refine List.filterMap_congr fun u _ => ?_
  by_cases hshow : j.mayShow n p u = true
  · cases ho : finished.get? u <;> simp [hshow, ho, Table.has, Option.guard]
  · simp [hshow, Option.guard]

/-! ## Slots -/

theorem edgeFeeds_slot (slot : String) :
    ((j.edgeFeeds n seen).filter fun f => f.1 = slot).map (·.2) =
      (j.blueprint.edgeSources n.id slot).filter seen.has := by
  unfold edgeFeeds Blueprint.edgeSources
  induction j.blueprint.edges with
  | nil => rfl
  | cons e edges ih =>
    obtain ⟨id, source, node, port⟩ := e
    by_cases hnode : node = n.id <;> by_cases hseen : seen.has source.node = true <;>
      by_cases hport : port = slot <;> simp_all

theorem needFeeds_slot (hself : seen.has n.id = false) (slot : String) :
    ((j.needFeeds n p seen).filter fun f => f.1 = slot).map (·.2) =
      (j.blueprint.needSources p slot).filter seen.has := by
  have hproducers (need : Need) : j.producers n need seen =
      ((j.blueprint.nodes.filter fun m => m.kind = need.kind).map (·.id)).filter seen.has := by
    unfold producers
    rw [List.filter_map, List.filter_filter]
    congr 1
    refine List.filter_congr fun m _ => ?_
    by_cases hm : m.id = n.id
    · simp [hm, hself]
    · simp [hm, Bool.and_comm]
  unfold needFeeds Blueprint.needSources
  simp only [List.filter_flatMap, List.map_flatMap, hproducers]
  congr 1
  funext need
  induction need.slots with
  | nil => rfl
  | cons s slots ih =>
    rw [List.flatMap_cons, ih, List.filter_cons]
    by_cases hs : s.2 = slot
    · simp [hs, List.filter_map, Function.comp_def]
    · simp [hs, List.filter_map, Function.comp_def]

/-- A slot lists the visible ones of its sources, each at its first place. -/
theorem feedsOf_eq (hself : seen.has n.id = false) (slot : String) :
    feedsOf (j.edgeFeeds n seen ++ j.needFeeds n p seen) slot =
      (distinct (j.blueprint.sources n.id p slot)).filter seen.has := by
  unfold feedsOf
  rw [List.filter_append, List.map_append, edgeFeeds_slot, needFeeds_slot hself,
    ← List.filter_append, distinct_filter]
  rfl

theorem nodup_keys_inputs : (j.inputs n p seen).keys.Nodup := by
  unfold inputs Table.keys
  simpa [Function.comp_def] using nodup_distinct _

/-- A slot without sources that are visible is absent. -/
theorem get?_inputs (hself : seen.has n.id = false) (slot : String) :
    (j.inputs n p seen).get? slot =
      if (distinct (j.blueprint.sources n.id p slot)).filter seen.has = [] then none
      else some (((distinct (j.blueprint.sources n.id p slot)).filter seen.has).filterMap
        seen.get?) := by
  rw [← feedsOf_eq hself]
  have hslot : slot ∈ (j.edgeFeeds n seen ++ j.needFeeds n p seen).map (·.1) ↔
      feedsOf (j.edgeFeeds n seen ++ j.needFeeds n p seen) slot ≠ [] := by
    simp only [feedsOf, ne_eq, distinct_eq_nil, List.map_eq_nil_iff, List.filter_eq_nil_iff,
      decide_eq_true_eq, not_forall, not_not, List.mem_map, exists_prop]
  unfold inputs
  apply Option.ext
  intro os
  rw [Table.get?_map_pair (by simpa using nodup_distinct _)]
  constructor
  · rintro ⟨s, hs, rfl, rfl⟩
    rw [if_neg (hslot.mp (mem_distinct.mp hs))]
  · intro h
    split at h
    · cases h
    · next hne => exact ⟨slot, mem_distinct.mpr (hslot.mpr hne), rfl, Option.some.inj h⟩

end Job
end ProjectComposer
