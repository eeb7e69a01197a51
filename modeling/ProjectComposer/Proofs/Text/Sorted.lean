import Mathlib.Data.List.Sort
import Mathlib.Data.String.Basic
import ProjectComposer.Text.Sorted

/-!
The sorted set of a list of texts is strictly increasing, and no other strictly increasing list has
the same members. So what is listed by it depends on neither order nor repetition. Sorting by a key
permutes the values and leaves their keys in order.
-/
namespace ProjectComposer.Text
set_option autoImplicit false

/-! ## Sets -/

theorem pairwise_insertSorted {a : String} {l : List String} (h : l.Pairwise (· < ·)) :
    (insertSorted a l).Pairwise (· < ·) := by
  induction l with
  | nil => simp [insertSorted]
  | cons b rest ih =>
    obtain ⟨hb, hrest⟩ := List.pairwise_cons.mp h
    unfold insertSorted
    split
    · next hab =>
      refine List.pairwise_cons.mpr ⟨?_, h⟩
      intro x hx
      rcases List.mem_cons.mp hx with rfl | hx
      · exact hab
      · exact lt_trans hab (hb x hx)
    · next hab =>
      split
      · exact h
      · next hne =>
        have hba : b < a := lt_of_le_of_ne (not_lt.mp hab) (Ne.symm hne)
        refine List.pairwise_cons.mpr ⟨?_, ih hrest⟩
        intro x hx
        rcases mem_insertSorted.mp hx with rfl | hx
        · exact hba
        · exact hb x hx

theorem pairwise_sortedDistinct (l : List String) : (sortedDistinct l).Pairwise (· < ·) := by
  induction l with
  | nil => exact List.Pairwise.nil
  | cons a l ih => exact pairwise_insertSorted ih

theorem nodup_sortedDistinct (l : List String) : (sortedDistinct l).Nodup :=
  (pairwise_sortedDistinct l).imp ne_of_lt

/-- A strictly increasing list is the sorted set of every list with its members. -/
theorem eq_sortedDistinct {l s : List String} (hs : s.Pairwise (· < ·))
    (h : ∀ x, x ∈ s ↔ x ∈ l) : s = sortedDistinct l := by
  have hsub : ∀ x, x ∈ s ↔ x ∈ sortedDistinct l := fun x => (h x).trans mem_sortedDistinct.symm
  have hperm : s.Perm (sortedDistinct l) :=
    (List.perm_ext_iff_of_nodup (hs.imp ne_of_lt) (nodup_sortedDistinct l)).mpr hsub
  exact hperm.eq_of_pairwise (fun _ _ _ _ hab hba => (lt_asymm hab hba).elim) hs
    (pairwise_sortedDistinct l)

theorem sortedDistinct_congr {l m : List String} (h : ∀ x, x ∈ l ↔ x ∈ m) :
    sortedDistinct l = sortedDistinct m :=
  eq_sortedDistinct (pairwise_sortedDistinct l) fun x => mem_sortedDistinct.trans (h x)

theorem sortedDistinct_eq_nil {l : List String} : sortedDistinct l = [] ↔ l = [] := by
  rw [List.eq_nil_iff_forall_not_mem, List.eq_nil_iff_forall_not_mem]
  simp only [mem_sortedDistinct]

theorem sortedDistinct_eq_singleton {l : List String} {a : String} :
    sortedDistinct l = [a] ↔ l ≠ [] ∧ ∀ x ∈ l, x = a := by
  constructor
  · intro h
    refine ⟨fun hl => ?_, fun x hx => ?_⟩
    · rw [hl] at h
      exact List.cons_ne_nil _ _ h.symm
    · rw [← mem_sortedDistinct, h] at hx
      exact List.mem_singleton.mp hx
  · rintro ⟨hne, hall⟩
    refine (eq_sortedDistinct (List.pairwise_singleton _ a) fun x => ?_).symm
    obtain ⟨b, hb⟩ := List.exists_mem_of_ne_nil l hne
    rw [List.mem_singleton]
    constructor
    · rintro rfl
      exact hall b hb ▸ hb
    · exact hall x

theorem headD_sortedDistinct {l : List String} (h : l ≠ []) (default : String) :
    (sortedDistinct l).headD default ∈ l ∧ ∀ x ∈ l, (sortedDistinct l).headD default ≤ x := by
  have hsorted := pairwise_sortedDistinct l
  have hmem : ∀ x, x ∈ sortedDistinct l ↔ x ∈ l := fun _ => mem_sortedDistinct
  cases hl : sortedDistinct l with
  | nil => exact absurd (sortedDistinct_eq_nil.mp hl) h
  | cons a rest =>
    rw [hl] at hsorted hmem
    refine ⟨(hmem a).mp List.mem_cons_self, fun x hx => ?_⟩
    rcases List.mem_cons.mp ((hmem x).mpr hx) with rfl | hrest
    · exact le_refl x
    · exact le_of_lt (List.rel_of_pairwise_cons hsorted hrest)

/-- A list names what has a property, once each and in order. -/
def ListsInOrder (l : List String) (p : String → Prop) : Prop :=
  l.Pairwise (· < ·) ∧ ∀ x, x ∈ l ↔ p x

theorem listsInOrder_sortedDistinct {l : List String} {p : String → Prop}
    (h : ∀ x, x ∈ l ↔ p x) : ListsInOrder (sortedDistinct l) p :=
  ⟨pairwise_sortedDistinct l, fun x => mem_sortedDistinct.trans (h x)⟩

theorem ListsInOrder.unique {l m : List String} {p : String → Prop} (hl : ListsInOrder l p)
    (hm : ListsInOrder m p) : l = m := by
  rw [eq_sortedDistinct hl.1 fun _ => Iff.rfl, eq_sortedDistinct hm.1 fun _ => Iff.rfl]
  exact sortedDistinct_congr fun x => (hl.2 x).trans (hm.2 x).symm

/-! ## Values by key -/

section ByKey
variable {α : Type} {key : α → String}

theorem perm_insertByKey (a : α) (l : List α) : (insertByKey key a l).Perm (a :: l) := by
  induction l with
  | nil => exact .refl _
  | cons b rest ih =>
    unfold insertByKey
    split
    · exact (ih.cons b).trans (.swap a b rest)
    · exact .refl _

theorem perm_sortByKey (l : List α) : (sortByKey key l).Perm l := by
  induction l with
  | nil => exact .refl _
  | cons a l ih => exact (perm_insertByKey a _).trans (ih.cons a)

theorem pairwise_insertByKey {a : α} {l : List α} (h : l.Pairwise fun x y => key x ≤ key y) :
    (insertByKey key a l).Pairwise fun x y => key x ≤ key y := by
  induction l with
  | nil => simp [insertByKey]
  | cons b rest ih =>
    obtain ⟨hb, hrest⟩ := List.pairwise_cons.mp h
    unfold insertByKey
    split
    · next hba =>
      refine List.pairwise_cons.mpr ⟨?_, ih hrest⟩
      intro x hx
      rcases mem_insertByKey.mp hx with rfl | hx
      · exact hba.le
      · exact hb x hx
    · next hba =>
      have hab : key a ≤ key b := not_lt.mp hba
      refine List.pairwise_cons.mpr ⟨?_, h⟩
      intro x hx
      rcases List.mem_cons.mp hx with rfl | hx
      · exact hab
      · exact hab.trans (hb x hx)

theorem pairwise_sortByKey (l : List α) :
    (sortByKey key l).Pairwise fun x y => key x ≤ key y := by
  induction l with
  | nil => exact List.Pairwise.nil
  | cons a l ih => exact pairwise_insertByKey ih

/-- Distinct keys are strictly increasing once they are sorted. -/
theorem pairwise_map_sortByKey {l : List α} (h : (l.map key).Nodup) :
    ((sortByKey key l).map key).Pairwise (· < ·) := by
  have hnodup : ((sortByKey key l).map key).Nodup := ((perm_sortByKey l).map key).nodup_iff.mpr h
  have hle : ((sortByKey key l).map key).Pairwise (· ≤ ·) :=
    List.pairwise_map.mpr (pairwise_sortByKey l)
  exact hle.imp₂ (fun _ _ hxy hne => lt_of_le_of_ne hxy hne) hnodup

theorem map_sortByKey {l : List α} (h : (l.map key).Nodup) :
    (sortByKey key l).map key = sortedDistinct (l.map key) :=
  eq_sortedDistinct (pairwise_map_sortByKey h) fun _ => ((perm_sortByKey l).map key).mem_iff

end ByKey

end ProjectComposer.Text
