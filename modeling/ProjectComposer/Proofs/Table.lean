import Mathlib.Data.List.Induction
import Mathlib.Data.List.Nodup
import ProjectComposer.Table

/-!
Tables as finite maps. Where the keys are distinct, a table holds a pair exactly if looking up its
key finds its value, so the order of the pairs does not show in look-ups. Putting keeps keys
distinct.
-/
namespace ProjectComposer.Table
set_option autoImplicit false

variable {α : Type} {t t' : Table α} {key key' : String} {value : α}

/-! ## Keys -/

theorem mem_keys : key ∈ t.keys ↔ ∃ value, (key, value) ∈ t := by
  simp [keys]

theorem mem_keys_iff_get? : key ∈ t.keys ↔ ∃ value, t.get? key = some value := by
  rw [← has_iff, has, Option.isSome_iff_exists]

theorem nodup_keys_put (h : t.keys.Nodup) : (t.put key value).keys.Nodup := by
  rw [keys_put]
  split
  · exact h
  · next hkey =>
    rw [← List.concat_eq_append]
    exact h.concat hkey

theorem mem_keys_put : key' ∈ (t.put key value).keys ↔ key' = key ∨ key' ∈ t.keys := by
  rw [keys_put]
  split
  · next hkey =>
    constructor
    · exact Or.inr
    · rintro (rfl | h) <;> assumption
  · simp [or_comm]

theorem mem_keys_ofPairs {pairs : List (String × α)} :
    key ∈ (ofPairs pairs).keys ↔ key ∈ pairs.map Prod.fst := by
  have hfold : ∀ (pairs : List (String × α)) (t : Table α),
      key ∈ (pairs.foldl (fun t e => t.put e.1 e.2) t).keys ↔
        key ∈ t.keys ∨ key ∈ pairs.map Prod.fst := by
    intro pairs
    induction pairs with
    | nil => simp
    | cons e rest ih =>
      intro t
      rw [List.foldl_cons, ih, mem_keys_put, List.map_cons, List.mem_cons, or_assoc, or_left_comm]
  rw [ofPairs, hfold]
  simp [keys]

theorem ofPairs_concat (pairs : List (String × α)) (e : String × α) :
    ofPairs (pairs ++ [e]) = (ofPairs pairs).put e.1 e.2 := by
  rw [ofPairs, List.foldl_append]
  rfl

theorem put_eq_concat (h : key ∉ t.keys) : t.put key value = t ++ [(key, value)] := by
  induction t with
  | nil => rfl
  | cons e rest ih =>
    obtain ⟨hne, hrest⟩ := not_or.mp (List.mem_cons.not.mp h)
    rw [put, if_neg (Ne.symm hne), ih hrest, List.cons_append]

/-- Pairs with distinct keys are their own table. -/
theorem ofPairs_eq_self {pairs : List (String × α)} (h : (pairs.map Prod.fst).Nodup) :
    ofPairs pairs = pairs := by
  have hfold : ∀ (pairs : List (String × α)) (t : Table α), (t ++ pairs).keys.Nodup →
      pairs.foldl (fun t e => t.put e.1 e.2) t = t ++ pairs := by
    intro pairs
    induction pairs with
    | nil => simp
    | cons e rest ih =>
      intro t ht
      have hkey : e.1 ∉ t.keys := by
        intro hmem
        rw [keys, List.map_append] at ht
        exact (List.nodup_append.mp ht).2.2 e.1 hmem e.1 List.mem_cons_self rfl
      rw [List.append_cons] at ht
      rw [List.foldl_cons, put_eq_concat hkey, ih _ ht, ← List.append_cons]
  exact hfold pairs [] h

/-! ## Pairs -/

theorem eq_or_mem_of_mem_put {e : String × α} (h : e ∈ t.put key value) :
    e = (key, value) ∨ e ∈ t := by
  induction t with
  | nil => exact .inl (List.mem_singleton.mp h)
  | cons first rest ih =>
    rw [put] at h
    split at h
    · exact (List.mem_cons.mp h).imp_right (List.mem_cons_of_mem _)
    · rcases List.mem_cons.mp h with rfl | hrest
      · exact .inr List.mem_cons_self
      · exact (ih hrest).imp_right (List.mem_cons_of_mem _)

theorem mem_of_mem_ofPairs {pairs : List (String × α)} {e : String × α} (h : e ∈ ofPairs pairs) :
    e ∈ pairs := by
  induction pairs using List.reverseRecOn with
  | nil => exact h
  | append_singleton pairs last ih =>
    rw [ofPairs_concat] at h
    rcases eq_or_mem_of_mem_put h with rfl | hmem
    · exact List.mem_concat_self
    · exact List.mem_append_left _ (ih hmem)

theorem mem_of_get? (h : t.get? key = some value) : (key, value) ∈ t := by
  obtain ⟨e, he, rfl⟩ := Option.map_eq_some_iff.mp h
  have hkey : e.1 = key := by simpa using List.find?_some he
  rw [← hkey]
  exact List.mem_of_find?_eq_some he

theorem get?_eq_some_iff (h : t.keys.Nodup) : t.get? key = some value ↔ (key, value) ∈ t := by
  refine ⟨mem_of_get?, ?_⟩
  intro hmem
  obtain ⟨found, hfound⟩ := mem_keys_iff_get?.mp (mem_keys.mpr ⟨value, hmem⟩)
  have hsame := List.inj_on_of_nodup_map h (mem_of_get? hfound) hmem rfl
  rw [hfound, (Prod.mk.inj hsame).2]

theorem get?_perm (hperm : t.Perm t') (h : t.keys.Nodup) (key : String) :
    t.get? key = t'.get? key := by
  have h' : t'.keys.Nodup := (hperm.map Prod.fst).nodup_iff.mp h
  apply Option.ext
  intro value
  rw [get?_eq_some_iff h, get?_eq_some_iff h', hperm.mem_iff]

theorem get?_map_pair {β : Type} {l : List β} {name : β → String} {content : β → α}
    (h : (l.map name).Nodup) : Table.get? (l.map fun b => (name b, content b)) key = some value ↔
      ∃ b ∈ l, name b = key ∧ content b = value := by
  have hkeys : Table.keys (l.map fun b => (name b, content b)) = l.map name := by
    simp [keys, Function.comp_def]
  rw [get?_eq_some_iff (hkeys.symm ▸ h)]
  simp

/-- A table with distinct keys is settled by their order and what is found under them. -/
theorem ext (hkeys : t.keys = t'.keys) (h : t.keys.Nodup)
    (hget : ∀ key ∈ t.keys, t.get? key = t'.get? key) : t = t' := by
  induction t generalizing t' with
  | nil => exact (List.map_eq_nil_iff.mp hkeys.symm).symm
  | cons e t ih =>
    cases t' with
    | nil => cases hkeys
    | cons e' t' =>
      obtain ⟨hkey, hrest⟩ := List.cons.inj hkeys
      obtain ⟨hnew, hnodup⟩ := List.nodup_cons.mp h
      have hfirst := hget e.1 List.mem_cons_self
      rw [get?_cons, get?_cons, if_pos rfl, if_pos hkey.symm, Option.some.injEq] at hfirst
      have htail : t = t' := by
        refine ih hrest hnodup fun key hkey' => ?_
        have hne : e.1 ≠ key := fun heq => hnew (heq ▸ hkey')
        have hfound := hget key (List.mem_cons_of_mem _ hkey')
        rwa [get?_cons, get?_cons, if_neg hne, if_neg (hkey ▸ hne)] at hfound
      rw [Prod.ext hkey hfirst, htail]

/-! ## Parts -/

theorem keys_filter (t : Table α) (keep : String → Bool) :
    keys (t.filter fun e => keep e.1) = t.keys.filter keep := by
  rw [keys, keys, List.filter_map]
  rfl

theorem get?_filter (t : Table α) (keep : String → Bool) (key : String) :
    get? (t.filter fun e => keep e.1) key = if keep key then t.get? key else none := by
  induction t with
  | nil => simp
  | cons e t ih =>
    rw [List.filter_cons, get?_cons]
    by_cases hkey : e.1 = key
    · subst hkey
      cases hkeep : keep e.1 with
      | false => simp [hkeep, ih]
      | true => simp [get?_cons]
    · rw [if_neg hkey]
      split
      · rw [get?_cons, if_neg hkey, ih]
      · exact ih

/-! ## Places -/

theorem get?_append_cons {s u : Table α} (h : key ∉ keys s) :
    get? (s ++ (key, value) :: u) key = some value := by
  induction s with
  | nil => simp [get?_cons]
  | cons e s ih =>
    rw [keys, List.map_cons, List.mem_cons, not_or] at h
    rw [List.cons_append, get?_cons, if_neg (Ne.symm h.1), ih h.2]

theorem put_append_cons {s u : Table α} (h : key ∉ keys s) (value' : α) :
    put (s ++ (key, value) :: u) key value' = s ++ (key, value') :: u := by
  induction s with
  | nil => simp [put]
  | cons e s ih =>
    rw [keys, List.map_cons, List.mem_cons, not_or] at h
    rw [List.cons_append, put, if_neg (Ne.symm h.1), ih h.2, List.cons_append]

/-- A value that is found stands at the first place of its key. -/
theorem exists_append_of_get? (h : t.get? key = some value) :
    ∃ s u, t = s ++ (key, value) :: u ∧ key ∉ keys s := by
  induction t with
  | nil => cases h
  | cons e t ih =>
    rw [get?_cons] at h
    split at h
    · next hkey =>
      obtain rfl := Option.some.inj h
      exact ⟨[], t, by simp [← hkey], by simp [keys]⟩
    · next hkey =>
      obtain ⟨s, u, rfl, hs⟩ := ih h
      refine ⟨e :: s, u, rfl, ?_⟩
      rw [keys, List.map_cons, List.mem_cons, not_or]
      exact ⟨Ne.symm hkey, hs⟩

end ProjectComposer.Table
