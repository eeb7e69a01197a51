import ProjectComposer.ProjectTree.Merge
import ProjectComposer.Proofs.Text.Sorted

/-!
Groups of artifacts. Entries agree exactly if there are none of them or all have one value. Where no
group is at fault, the merged groups stand for the keys, one for each key and in their order.
-/
namespace ProjectComposer.Merge
set_option autoImplicit false

/-! ## Offers -/

theorem mem_offered {α : Type} {cs : List Contribution} {artifacts : Output → List α}
    {a : Contribution × α} : a ∈ offered cs artifacts ↔ a.1 ∈ cs ∧ a.2 ∈ artifacts a.1.output := by
  obtain ⟨c, x⟩ := a
  simp only [offered, List.mem_flatMap, List.mem_map, Prod.mk.injEq]
  constructor
  · rintro ⟨c', hc, x', hx, rfl, rfl⟩
    exact ⟨hc, hx⟩
  · rintro ⟨hc, hx⟩
    exact ⟨c, hc, x, hx, rfl, rfl⟩

/-! ## Agreement -/

section Agreement
variable {es : List Entry}

theorem values_eq_nil : values es = [] ↔ es = [] := by
  rw [values, Text.sortedDistinct_eq_nil, List.map_eq_nil_iff]

theorem values_eq_singleton {v : String} :
    values es = [v] ↔ es ≠ [] ∧ ∀ e ∈ es, e.value = v := by
  rw [values, Text.sortedDistinct_eq_singleton]
  simp

theorem agreed_eq_ok {disagreement : List Entry → Fault} {o : Option String} :
    agreed disagreement es = .ok o ↔
      es = [] ∧ o = none ∨ ∃ v, o = some v ∧ es ≠ [] ∧ ∀ e ∈ es, e.value = v := by
  simp only [← values_eq_singleton, ← values_eq_nil]
  unfold agreed
  split
  · next h => simp [h, eq_comm]
  · next v h => simp [h, eq_comm]
  · next hnil hsingle =>
    constructor
    · intro h
      cases h
    · rintro (⟨h, -⟩ | ⟨v, -, h⟩)
      · exact (hnil h).elim
      · exact (hsingle v h).elim

end Agreement

/-! ## Groups without fault -/

section Groups
variable {α β : Type} {rs : List (Except Fault β)}

@[simp] theorem merged_cons_ok (b : β) (rs : List (Except Fault β)) :
    merged (.ok b :: rs) = b :: merged rs := rfl

theorem mem_merged {b : β} : b ∈ merged rs ↔ .ok b ∈ rs := by
  unfold merged
  rw [List.mem_filterMap]
  constructor
  · rintro ⟨r, hr, h⟩
    cases r with
    | error f => cases h
    | ok b' =>
      cases h
      exact hr
  · intro h
    exact ⟨_, h, rfl⟩

theorem mem_faults {f : Fault} : f ∈ faults rs ↔ .error f ∈ rs := by
  unfold faults
  rw [List.mem_filterMap]
  constructor
  · rintro ⟨r, hr, h⟩
    cases r with
    | ok b => cases h
    | error f' =>
      cases h
      exact hr
  · intro h
    exact ⟨_, h, rfl⟩

theorem faults_eq_nil : faults rs = [] ↔ ∀ r ∈ rs, ∃ b, r = .ok b := by
  rw [List.eq_nil_iff_forall_not_mem]
  constructor
  · intro h r hr
    cases r with
    | error f => exact (h f (mem_faults.mpr hr)).elim
    | ok b => exact ⟨b, rfl⟩
  · intro h f hf
    obtain ⟨b, hb⟩ := h _ (mem_faults.mp hf)
    cases hb

theorem raiseFirst_eq_ok {fs : List Fault} {u : Unit} : raiseFirst fs = .ok u ↔ fs = [] := by
  cases fs with
  | nil => simp [raiseFirst]
  | cons f more => simp [raiseFirst]

section ByKey
variable {key : α → String} {merge : String → List α → Except Fault β} {l : List α}

theorem mem_merged_byKey {b : β} : b ∈ merged (byKey key merge l) ↔
    ∃ k ∈ l.map key, merge k (l.filter fun a => key a = k) = .ok b := by
  rw [mem_merged, byKey, List.mem_map]
  simp only [Text.mem_sortedDistinct]

theorem exists_mem_merged_byKey (h : faults (byKey key merge l) = []) {k : String}
    (hk : k ∈ l.map key) : ∃ b ∈ merged (byKey key merge l),
      merge k (l.filter fun a => key a = k) = .ok b := by
  have hgroup : merge k (l.filter fun a => key a = k) ∈ byKey key merge l :=
    List.mem_map_of_mem (Text.mem_sortedDistinct.mpr hk)
  obtain ⟨b, hb⟩ := faults_eq_nil.mp h _ hgroup
  exact ⟨b, mem_merged_byKey.mpr ⟨k, hk, hb⟩, hb⟩

/-- What is merged under a key carries this key, so the keys of all groups come out sorted. -/
theorem map_merged_byKey {name : β → String} (hname : ∀ k as b, merge k as = .ok b → name b = k)
    (h : faults (byKey key merge l) = []) :
    (merged (byKey key merge l)).map name = Text.sortedDistinct (l.map key) := by
  -- The induction is on the keys alone: every group is cut out of the whole list.
  have hgroups : ∀ ks : List String,
      (∀ k ∈ ks, ∃ b, merge k (l.filter fun a => key a = k) = .ok b) →
        (merged (ks.map fun k => merge k (l.filter fun a => key a = k))).map name = ks := by
    intro ks hks
    induction ks with
    | nil => rfl
    | cons k ks ih =>
      obtain ⟨⟨b, hb⟩, hrest⟩ := List.forall_mem_cons.mp hks
      rw [List.map_cons, hb, merged_cons_ok, List.map_cons, ih hrest, hname k _ b hb]
  refine hgroups _ fun k hk => ?_
  obtain ⟨b, -, hb⟩ := exists_mem_merged_byKey h (Text.mem_sortedDistinct.mp hk)
  exact ⟨b, hb⟩

end ByKey
end Groups
end ProjectComposer.Merge
