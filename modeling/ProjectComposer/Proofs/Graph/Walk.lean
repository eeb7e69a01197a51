import Mathlib.Data.List.Chain
import Mathlib.Data.List.Duplicate
import Mathlib.Data.Fintype.Card

/-!
Walks and cycles of a relation. A walk is a chain of arcs, written as the list of its nodes; a loop
comes back to its first node, which is written once. A loop with a repeated node can be cut shorter
and keeps its first node, so the shortest loops are cycles, through every node and overall. A finite
set whose members all have a predecessor inside holds a cycle.
-/
namespace ProjectComposer.Graph
set_option autoImplicit false

variable {V : Type} {arc : V → V → Prop}

/-! ## Loops and cycles -/

/-- The nodes of a way back to its first node. -/
def IsLoop (arc : V → V → Prop) (c : List V) : Prop :=
  c ≠ [] ∧ (c ++ c.take 1).IsChain arc

/-- A loop without repetitions: an arc leads from each node to the next, and back to the first. -/
def IsCycle (arc : V → V → Prop) (c : List V) : Prop :=
  c.Nodup ∧ IsLoop arc c

theorem isChain_concat_concat {w : List V} {u v : V} :
    (w ++ [u] ++ [v]).IsChain arc ↔ (w ++ [u]).IsChain arc ∧ arc u v := by
  rw [List.append_assoc, List.singleton_append, List.isChain_append_cons_cons]
  simp

theorem isLoop_cons {v : V} {rest : List V} :
    IsLoop arc (v :: rest) ↔ (v :: rest ++ [v]).IsChain arc := by
  simp [IsLoop]

theorem isLoop_concat {w : List V} {u v : V} (hv : (w ++ [u]).head? = some v) :
    IsLoop arc (w ++ [u]) ↔ (w ++ [u]).IsChain arc ∧ arc u v := by
  have htake : (w ++ [u]).take 1 = [v] := by
    rw [List.take_one, hv]
    rfl
  unfold IsLoop
  rw [htake, isChain_concat_concat, and_iff_right (List.append_ne_nil_of_right_ne_nil w (by simp))]

/-- Every node of a loop has a predecessor on it. -/
theorem IsLoop.exists_pred {c : List V} (h : IsLoop arc c) {v : V} (hv : v ∈ c) :
    ∃ u ∈ c, arc u v := by
  have hchain : ∀ (x : V) (l : List V), (x :: l).IsChain arc → ∀ y ∈ l, ∃ u ∈ x :: l, arc u y := by
    intro x l hl
    induction l generalizing x with
    | nil => simp
    | cons a l ih =>
      obtain ⟨hxa, hl⟩ := List.isChain_cons_cons.mp hl
      intro y hy
      rcases List.mem_cons.mp hy with rfl | hy
      · exact ⟨x, List.mem_cons_self, hxa⟩
      · obtain ⟨u, hu, huy⟩ := ih a hl y hy
        exact ⟨u, List.mem_cons_of_mem x hu, huy⟩
  cases c with
  | nil => exact absurd rfl h.1
  | cons x rest =>
    have hv' : v ∈ rest ++ [x] := by
      rcases List.mem_cons.mp hv with rfl | hv <;> simp [*]
    obtain ⟨u, hu, huv⟩ := hchain x (rest ++ [x]) (isLoop_cons.mp h) v hv'
    refine ⟨u, ?_, huv⟩
    simpa [or_comm, or_left_comm] using hu

/-! ## Cutting -/

theorem exists_split_of_not_nodup {l : List V} (h : ¬l.Nodup) :
    ∃ a x b e, l = a ++ x :: b ++ x :: e := by
  rw [List.nodup_iff_sublist] at h
  obtain ⟨x, hx⟩ := not_forall_not.mp h
  obtain ⟨r₁, r₂, rfl, h₁, h₂⟩ := List.cons_sublist_iff.mp hx
  obtain ⟨a, b, rfl⟩ := List.append_of_mem h₁
  obtain ⟨b', e, rfl⟩ := List.append_of_mem (List.singleton_sublist.mp h₂)
  exact ⟨a, x, b ++ b', e, by simp⟩

/-- A walk with a repeated node goes through a loop. -/
theorem exists_isLoop_of_not_nodup {w : List V} (hw : w.IsChain arc) (h : ¬w.Nodup) :
    ∃ c, IsLoop arc c ∧ c ⊆ w := by
  obtain ⟨a, x, b, e, rfl⟩ := exists_split_of_not_nodup h
  refine ⟨x :: b, ?_, ?_⟩
  · rw [isLoop_cons]
    exact hw.infix ⟨a, e, by simp⟩
  · intro y hy
    simp only [List.mem_append, hy, or_true, true_or]

/-- A loop with a repeated node has a shorter one with the same first node inside. -/
theorem IsLoop.exists_shorter {c : List V} (hc : IsLoop arc c) (h : ¬c.Nodup) :
    ∃ d, IsLoop arc d ∧ d.head? = c.head? ∧ d ⊆ c ∧ d.length < c.length := by
  obtain ⟨a, x, b, e, rfl⟩ := exists_split_of_not_nodup h
  refine ⟨a ++ x :: e, ⟨by simp, ?_⟩, ?_, ?_, ?_⟩
  · have htake : (a ++ x :: b ++ x :: e).take 1 = (a ++ x :: e).take 1 := by cases a <;> simp
    have hchain := hc.2
    rw [htake, List.append_assoc, List.append_assoc, List.cons_append, List.isChain_split] at hchain
    have htail : (x :: e ++ (a ++ x :: e).take 1).IsChain arc :=
      hchain.2.suffix ⟨x :: b, by simp⟩
    rw [List.append_assoc, List.cons_append, List.isChain_split]
    exact ⟨hchain.1, htail⟩
  · cases a <;> simp
  · intro y hy
    simp only [List.mem_append, List.mem_cons] at hy ⊢
    tauto
  · simp only [List.length_append, List.length_cons]
    omega

/-- Inside every loop there is a cycle. -/
theorem IsLoop.exists_isCycle {c : List V} (hc : IsLoop arc c) :
    ∃ d, IsCycle arc d ∧ d ⊆ c := by
  induction hn : c.length using Nat.strong_induction_on generalizing c with
  | _ n ih =>
    by_cases h : c.Nodup
    · exact ⟨c, ⟨h, hc⟩, List.Subset.refl c⟩
    · obtain ⟨d, hd, -, hsub, hlt⟩ := hc.exists_shorter h
      obtain ⟨e, he, hed⟩ := ih d.length (hn ▸ hlt) hd rfl
      exact ⟨e, he, fun _ hv => hsub (hed hv)⟩

/-! ## Finite sets -/

theorem exists_walk_of_forall_exists_pred {s : List V} (hs : s ≠ [])
    (hpred : ∀ v ∈ s, ∃ u ∈ s, arc u v) (n : ℕ) :
    ∃ w : List V, w.length = n + 1 ∧ w.IsChain arc ∧ w ⊆ s := by
  induction n with
  | zero =>
    obtain ⟨v, hv⟩ := List.exists_mem_of_ne_nil s hs
    exact ⟨[v], rfl, List.isChain_singleton v, by simpa using hv⟩
  | succ n ih =>
    obtain ⟨w, hlen, hchain, hsub⟩ := ih
    cases w with
    | nil => simp at hlen
    | cons v w =>
      obtain ⟨u, hu, huv⟩ := hpred v (hsub List.mem_cons_self)
      refine ⟨u :: v :: w, by simpa using hlen, List.isChain_cons_cons.mpr ⟨huv, hchain⟩, ?_⟩
      exact List.cons_subset.mpr ⟨hu, hsub⟩

/-- Where every member of a finite set has a predecessor in it, the set holds a cycle. -/
theorem exists_isCycle_of_forall_exists_pred {s : List V} (hs : s ≠ [])
    (hpred : ∀ v ∈ s, ∃ u ∈ s, arc u v) : ∃ c, IsCycle arc c ∧ c ⊆ s := by
  classical
  obtain ⟨w, hlen, hchain, hsub⟩ := exists_walk_of_forall_exists_pred hs hpred s.length
  have hdup : ¬w.Nodup := by
    intro hw
    have := (hw.subperm hsub).length_le
    omega
  obtain ⟨c, hc, hcw⟩ := exists_isLoop_of_not_nodup hchain hdup
  obtain ⟨d, hd, hdc⟩ := hc.exists_isCycle
  exact ⟨d, hd, fun _ hv => hsub (hcw (hdc hv))⟩

end ProjectComposer.Graph
