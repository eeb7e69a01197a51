import ProjectComposer.Graph.Links
import ProjectComposer.Proofs.Except
import ProjectComposer.Proofs.Graph.Search
import ProjectComposer.Proofs.Table

/-!
Both tables of a graph say the same. An arc enters its target under its source and its source under
its target, and leaves all other entries alone; so after any number of arcs the targets of a node
and the sources of a node are those of the arcs added, once each, and one table is the converse of
the other. Sorting by places gives the order of the nodes, whatever order a set is listed in.
-/
namespace ProjectComposer
set_option autoImplicit false

/-! ## Sorting -/

/-- Values whose keys are all found are sorted by them. -/
theorem sortedBy_eq_ok {α β : Type} [LinearOrder β] {key : α → Except Failure β} (place : α → β)
    {xs ys : List α} (hkey : ∀ x ∈ xs, key x = .ok (place x)) (hperm : ys.Perm xs)
    (hys : ys.Pairwise fun x y => place x < place y) : sortedBy key xs = .ok ys := by
  let keyed (x : α) : β × α := (place x, x)
  have hkeyed : xs.mapM (fun x => do return (← key x, x)) = .ok (xs.map keyed) :=
    mapM_eq_ok_map fun x hx => by rw [hkey x hx]; rfl
  have hsorted : (xs.map keyed).mergeSort (fun a b => a.1 ≤ b.1) = ys.map keyed := by
    have hle : ((xs.map keyed).mergeSort fun a b => a.1 ≤ b.1).Pairwise fun a b => a.1 ≤ b.1 := by
      refine (List.pairwise_mergeSort (fun a b c hab hbc => ?_) (fun a b => ?_) _).imp
        of_decide_eq_true
      · simp only [decide_eq_true_eq] at *
        exact hab.trans hbc
      · simpa using le_total a.1 b.1
    have hlt : (ys.map keyed).Pairwise fun a b => a.1 < b.1 := List.pairwise_map.mpr hys
    have hys : (ys.map keyed).Pairwise fun a b => a.1 ≤ b.1 := hlt.imp le_of_lt
    have hsame := (List.mergeSort_perm (xs.map keyed) fun a b => a.1 ≤ b.1).trans
      (hperm.map keyed).symm
    -- Equal keys stand at one place of the strictly sorted list, so they belong to one value.
    refine List.Perm.eq_of_pairwise (fun a b ha hb hab hba => ?_) hle hys hsame
    have hnodup : ((ys.map keyed).map Prod.fst).Nodup :=
      List.pairwise_map.mpr (hlt.imp ne_of_lt)
    exact List.inj_on_of_nodup_map hnodup (hsame.mem_iff.mp ha) hb (le_antisymm hab hba)
  unfold sortedBy
  rw [hkeyed]
  change Except.ok _ = _
  rw [hsorted, List.map_map]
  exact congrArg Except.ok (List.map_id ys)

/-! ## Sets under nodes -/

namespace Table

/-- Under every node stands the set of all that is related to it. -/
structure Lists (t : Table (List String)) (nodes : List String)
    (related : String → String → Prop) : Prop where
  keys_eq : t.keys = nodes
  nodup : ∀ id set, t.get? id = some set → set.Nodup
  mem_iff : ∀ id set, t.get? id = some set → ∀ x, x ∈ set ↔ related id x

theorem entry_eq_ok {α : Type} {t : Table α} {id : String} {a : α} :
    t.entry id = .ok a ↔ t.get? id = some a := by
  unfold entry
  cases t.get? id <;> simp

theorem entry_of_not_mem {α : Type} {t : Table α} {id : String} (h : id ∉ t.keys) :
    t.entry id = .error (.lookup (.node id)) := by
  unfold entry
  rw [← has_iff, has, Option.not_isSome_iff_eq_none] at h
  rw [h]

namespace Lists
variable {t : Table (List String)} {nodes : List String} {related : String → String → Prop}

theorem start (h : nodes.Nodup) :
    Lists (.ofPairs (nodes.map fun id => (id, []))) nodes fun _ _ => False := by
  have hkeys : Table.keys (nodes.map fun id => (id, ([] : List String))) = nodes := by
    simp [keys, Function.comp_def]
  rw [← hkeys] at h
  have hnil : ∀ id set, Table.get? (nodes.map fun id => (id, ([] : List String))) id = some set →
      set = [] := by
    intro id set hset
    obtain ⟨_, -, hpair⟩ := List.mem_map.mp (mem_of_get? hset)
    exact (Prod.mk.inj hpair).2.symm
  rw [ofPairs_eq_self h]
  refine ⟨hkeys, fun id set hset => ?_, fun id set hset x => ?_⟩
  · rw [hnil id set hset]
    exact List.nodup_nil
  · rw [hnil id set hset]
    exact iff_of_false List.not_mem_nil not_false

theorem exists_entry (h : t.Lists nodes related) {id : String} (hid : id ∈ nodes) :
    ∃ set, t.entry id = .ok set ∧ set.Nodup ∧ ∀ x, x ∈ set ↔ related id x := by
  obtain ⟨set, hset⟩ := mem_keys_iff_get?.mp (h.keys_eq.symm ▸ hid)
  exact ⟨set, entry_eq_ok.mpr hset, h.nodup id set hset, h.mem_iff id set hset⟩

/-- Entering relates one thing more to one node. -/
theorem exists_enter (h : t.Lists nodes related) {id : String} (hid : id ∈ nodes) (x : String) :
    ∃ t', t.enter id x = .ok t' ∧
      t'.Lists nodes fun a b => (a = id ∧ b = x) ∨ related a b := by
  obtain ⟨set, hset, hnodup, hmem⟩ := h.exists_entry hid
  refine ⟨t.put id (set.insert x), ?_, ?_, fun a found hfound => ?_, fun a found hfound b => ?_⟩
  · rw [enter, hset]
    rfl
  · rw [keys_put, if_pos (h.keys_eq.symm ▸ hid), h.keys_eq]
  · rw [get?_put] at hfound
    split at hfound
    · obtain rfl := Option.some.inj hfound
      exact hnodup.insert
    · exact h.nodup a found hfound
  · rw [get?_put] at hfound
    split at hfound
    · next hid =>
      obtain rfl := Option.some.inj hfound
      obtain rfl := hid
      simp [hmem]
    · next hne =>
      rw [h.mem_iff a found hfound]
      simp [Ne.symm hne]

end Lists
end Table

/-! ## Arcs -/

namespace Links

/-- Both tables hold the arcs of a relation between the nodes. -/
structure Holds (l : Links) (arc : String → String → Prop) : Prop where
  successors : l.successors.Lists l.nodes arc
  predecessors : l.predecessors.Lists l.nodes fun v u => arc u v
  ends : ∀ u v, arc u v → u ∈ l.nodes ∧ v ∈ l.nodes

section Arcs
variable {l : Links} {arc arc' : String → String → Prop} {u v : String}

theorem Holds.congr (h : l.Holds arc) (heq : ∀ u v, arc u v ↔ arc' u v) : l.Holds arc' := by
  obtain rfl : arc = arc' := by
    funext u v
    exact propext (heq u v)
  exact h

theorem Holds.exists_addArc (h : l.Holds arc) (hu : u ∈ l.nodes) (hv : v ∈ l.nodes) :
    ∃ l', l.addArc u v = .ok l' ∧ l'.nodes = l.nodes ∧ l'.kinds = l.kinds ∧
      l'.Holds fun x y => (x = u ∧ y = v) ∨ arc x y := by
  obtain ⟨successors, hsuccessors, hlists⟩ := h.successors.exists_enter hu v
  obtain ⟨predecessors, hpredecessors, hlists'⟩ := h.predecessors.exists_enter hv u
  refine ⟨{ l with successors := successors, predecessors := predecessors }, ?_, rfl, rfl, hlists,
    ?_, ?_⟩
  · rw [addArc, hsuccessors, hpredecessors]
    rfl
  · simp only [and_comm]
    exact hlists'
  · rintro x y (⟨rfl, rfl⟩ | harc)
    · exact ⟨hu, hv⟩
    · exact h.ends x y harc

theorem addArcs_cons (l : Links) (a : String × String) (arcs : List (String × String)) :
    l.addArcs (a :: arcs) = (l.addArc a.1 a.2).bind fun l => l.addArcs arcs := rfl

theorem Holds.exists_addArcs (h : l.Holds arc) {arcs : List (String × String)}
    (harcs : ∀ a ∈ arcs, a.1 ∈ l.nodes ∧ a.2 ∈ l.nodes) :
    ∃ l', l.addArcs arcs = .ok l' ∧ l'.nodes = l.nodes ∧ l'.kinds = l.kinds ∧
      l'.Holds fun x y => (x, y) ∈ arcs ∨ arc x y := by
  induction arcs generalizing l arc with
  | nil => exact ⟨l, rfl, rfl, rfl, h.congr fun x y => by simp⟩
  | cons a arcs ih =>
    obtain ⟨ha, harcs⟩ := List.forall_mem_cons.mp harcs
    obtain ⟨l₁, h₁, hnodes₁, hkinds₁, hholds₁⟩ := h.exists_addArc ha.1 ha.2
    obtain ⟨l', h', hnodes, hkinds, hholds⟩ := ih hholds₁ (hnodes₁.symm ▸ harcs)
    refine ⟨l', ?_, hnodes.trans hnodes₁, hkinds.trans hkinds₁, hholds.congr fun x y => ?_⟩
    · rw [addArcs_cons, h₁]
      exact h'
    · rw [List.mem_cons, Prod.ext_iff, or_left_comm, or_assoc]

theorem addArcs_append (l : Links) (as bs : List (String × String)) :
    l.addArcs (as ++ bs) = l.addArcs as >>= fun l => l.addArcs bs :=
  List.foldlM_append

/-- Adding arcs part by part, as soon as each part is known, adds all of them, and fails where a
part cannot be told: the arcs themselves are never refused. -/
theorem foldlM_addArcs {α : Type} {nodes : List String}
    {parts : α → Except Failure (List (String × String))} (step : Links → α → Except Failure Links)
    {xs : List α} (hl : l.nodes = nodes) (h : l.Holds arc)
    (hstep : ∀ l arc, l.nodes = nodes → l.Holds arc → ∀ x ∈ xs, step l x = parts x >>= l.addArcs)
    (hparts : ∀ x ∈ xs, ∀ arcs, parts x = .ok arcs → ∀ a ∈ arcs, a.1 ∈ nodes ∧ a.2 ∈ nodes) :
    xs.foldlM step l = xs.mapM parts >>= fun arcs => l.addArcs arcs.flatten := by
  induction xs generalizing l arc with
  | nil => rfl
  | cons x xs ih =>
    rw [List.foldlM_cons, List.mapM_cons, hstep l arc hl h x List.mem_cons_self]
    cases hx : parts x with
    | error f => rfl
    | ok arcs =>
      have hends := hparts x List.mem_cons_self arcs hx
      obtain ⟨l', hl', hnodes, -, hholds⟩ := h.exists_addArcs (hl.symm ▸ hends)
      have hrest := ih (hnodes.trans hl) hholds
        (fun l arc hl h y hy => hstep l arc hl h y (List.mem_cons_of_mem x hy))
        (fun y hy => hparts y (List.mem_cons_of_mem x hy))
      change (l.addArcs arcs >>= fun l => xs.foldlM step l) = _
      rw [hl']
      change xs.foldlM step l' = _
      rw [hrest]
      cases xs.mapM parts with
      | error f => rfl
      | ok more =>
        change l'.addArcs more.flatten = l.addArcs (arcs ++ more.flatten)
        rw [addArcs_append, hl']
        rfl

end Arcs

/-- What arcs between given nodes build, whatever order they are added in. -/
theorem exists_holds {nodes : List String} {arcs : List (String × String)} (kinds : Table String)
    (hnodes : nodes.Nodup) (harcs : ∀ a ∈ arcs, a.1 ∈ nodes ∧ a.2 ∈ nodes) :
    ∃ l, (ofNodes nodes kinds).addArcs arcs = .ok l ∧ l.nodes = nodes ∧ l.kinds = kinds ∧
      l.Holds fun u v => (u, v) ∈ arcs := by
  have hstart : (ofNodes nodes kinds).Holds fun _ _ => False :=
    ⟨.start hnodes, .start hnodes, fun _ _ => False.elim⟩
  obtain ⟨l, hl, hnodes', hkinds, hholds⟩ := hstart.exists_addArcs harcs
  exact ⟨l, hl, hnodes', hkinds, hholds.congr fun u v => by simp⟩

/-! ## Places -/

section Places
variable {l : Links} {ids : List String}

theorem entry_places (hnodes : l.nodes.Nodup) {id : String} (hid : id ∈ l.nodes) :
    l.places.entry id = .ok (l.nodes.idxOf id) := by
  have hkeys : Table.keys l.nodes.zipIdx = l.nodes := List.zipIdx_map_fst 0 l.nodes
  have hnodup : (Table.keys l.nodes.zipIdx).Nodup := hkeys.symm ▸ hnodes
  rw [Table.entry_eq_ok, places, Table.ofPairs_eq_self hnodup, Table.get?_eq_some_iff hnodup,
    List.mk_mem_zipIdx_iff_getElem?]
  exact List.getElem?_idxOf hid

/-- A set of nodes is sorted into the order of all nodes. -/
theorem sortedByPlace_eq_ok (hnodes : l.nodes.Nodup) (hids : ids.Nodup) (hsub : ids ⊆ l.nodes) :
    l.sortedByPlace ids = .ok (l.nodes.filter (· ∈ ids)) := by
  refine sortedBy_eq_ok _ (fun id hid => entry_places hnodes (hsub hid)) ?_
    (Graph.pairwise_idxOf hnodes List.filter_sublist)
  refine (List.perm_ext_iff_of_nodup (hnodes.filter _) hids).mpr fun id => ?_
  rw [List.mem_filter, decide_eq_true_iff, and_iff_right_of_imp fun h => hsub h]

end Places
end Links
end ProjectComposer
