import ProjectComposer.Proofs.Execution.Completed
import ProjectComposer.Proofs.Execution.Slots

/-!
Registrations, one after the other. After any calls a registry holds, for every id that is permitted
and was submitted, the plugin of the first call with that id, and nothing else; the ids stand in the
order of these calls. Each view of the registry tells the same of it.
-/
namespace ProjectComposer
set_option autoImplicit false
open Wire

namespace Registry

/-- An id may be registered. An empty list stands for no restriction. -/
def Permits (allowed : List String) (id : String) : Prop :=
  allowed = [] ∨ id ∈ allowed

instance (allowed : List String) (id : String) : Decidable (Permits allowed id) :=
  inferInstanceAs (Decidable (_ ∨ _))

variable {r : Registry} {p : Plugin} {id : String}

/-! ## Views -/

theorem mem_ids : id ∈ r.ids ↔ ∃ p ∈ r.plugins, p.id = id :=
  List.mem_map

theorem get?_eq_none : r.get? id = none ↔ id ∉ r.ids := by
  rw [get?, List.find?_eq_none, mem_ids]
  simp

theorem has_eq_true : r.has id = true ↔ id ∈ r.ids := by
  rw [has, Option.isSome_iff_ne_none, ne_eq, get?_eq_none, not_not]

theorem find_eq_error (h : id ∉ r.ids) : r.find id = .error (.lookup (.plugin id)) := by
  rw [find, get?_eq_none.mpr h]

/-- Where no id comes twice every plugin is found under its own. -/
theorem get?_id (h : r.ids.Nodup) (hp : p ∈ r.plugins) : r.get? p.id = some p := by
  obtain ⟨before, after, hplugins⟩ := List.append_of_mem hp
  rw [ids, hplugins, List.map_append, List.map_cons, List.nodup_middle, List.nodup_cons] at h
  refine List.find?_eq_some_iff_append.mpr ⟨decide_eq_true rfl, before, after, hplugins, ?_⟩
  intro q hq
  simpa using fun hid => h.1 (List.mem_append_left _ (List.mem_map.mpr ⟨q, hq, hid⟩))

/-- Parts of a list by a key, for some of the keys, are together the items with these keys. -/
theorem flatMap_filter_perm {α β : Type} [DecidableEq β] (key : α → β) (l : List α) {keys : List β}
    (h : keys.Nodup) :
    (keys.flatMap fun k => l.filter fun a => key a = k).Perm (l.filter fun a => key a ∈ keys) := by
  induction keys with
  | nil => simp
  | cons k keys ih =>
    obtain ⟨hk, hkeys⟩ := List.nodup_cons.mp h
    have hfirst : (l.filter fun a => key a ∈ k :: keys).filter (fun a => key a = k) =
        l.filter fun a => key a = k := by
      rw [List.filter_filter]
      refine List.filter_congr fun a _ => ?_
      by_cases ha : key a = k <;> simp [ha]
    have hrest : (l.filter fun a => key a ∈ k :: keys).filter (fun a => !decide (key a = k)) =
        l.filter fun a => key a ∈ keys := by
      rw [List.filter_filter]
      refine List.filter_congr fun a _ => ?_
      by_cases ha : key a = k <;> simp [ha, hk]
    have hparts := List.filter_append_perm (fun a => key a = k)
      (l.filter fun a => key a ∈ k :: keys)
    rw [hfirst, hrest] at hparts
    rw [List.flatMap_cons]
    exact ((ih hkeys).append_left _).trans hparts

theorem byField_perm (r : Registry) : (Named.all.flatMap r.byField).Perm r.plugins := by
  have hnodup : (Named.all : List Field).Nodup := by decide
  have hall (f : Field) : f ∈ (Named.all : List Field) := by cases f <;> decide
  have hparts := flatMap_filter_perm (fun p : Plugin => p.card.field) r.plugins hnodup
  simp only [hall, decide_true, List.filter_true] at hparts
  exact hparts

/-- The views of a registry agree. -/
structure Agrees (r : Registry) : Prop where
  has : ∀ id, r.has id = true ↔ id ∈ r.ids
  get? : ∀ id, (∃ p, r.get? id = some p) ↔ id ∈ r.ids
  find : ∀ id p, r.find id = .ok p ↔ r.get? id = some p
  missing : ∀ id, id ∉ r.ids → r.find id = .error (.lookup (.plugin id))
  size : r.size = r.ids.length
  iterated : List.Forall₂ (fun p id => r.get? id = some p) r.plugins r.ids
  nothingLost : (Named.all.flatMap r.byField).Perm r.plugins
  noOverlap : ∀ f g, f ≠ g → (r.byField f).Disjoint (r.byField g)
  inOrder : ∀ f, (r.byField f).Sublist r.plugins

theorem Agrees.of_nodup (h : r.ids.Nodup) : r.Agrees where
  has _ := has_eq_true
  get? id := by rw [← Option.ne_none_iff_exists', ne_eq, get?_eq_none, not_not]
  find _ _ := find_eq_ok
  missing _ := find_eq_error
  size := (List.length_map _).symm
  iterated := List.forall₂_map_right_iff.mpr (List.forall₂_same.mpr fun _ hp => get?_id h hp)
  nothingLost := r.byField_perm
  noOverlap f g hne p hf hg := by
    simp only [byField, List.mem_filter, decide_eq_true_eq] at hf hg
    exact hne (hf.2.symm.trans hg.2)
  inOrder _ := List.filter_sublist

/-! ## Single calls -/

theorem register_eq (r : Registry) (p : Plugin) : r.register p =
    if Permits r.allowed p.id then
      if p.id ∈ r.ids then .error (.taken p.id) else .ok { r with plugins := r.plugins ++ [p] }
    else .error (.notAllowed p.id) := by
  have hrefuses : (r.allowed ≠ [] ∧ p.id ∉ r.allowed) ↔ ¬Permits r.allowed p.id := not_or.symm
  rw [register, if_congr hrefuses rfl rfl, if_congr has_eq_true rfl rfl, ite_not]

theorem register_eq_error {e : Refusal} : r.register p = .error e ↔
    ¬Permits r.allowed p.id ∧ e = .notAllowed p.id ∨
      Permits r.allowed p.id ∧ p.id ∈ r.ids ∧ e = .taken p.id := by
  rw [register_eq]
  by_cases hpermits : Permits r.allowed p.id
  · by_cases htaken : p.id ∈ r.ids
    · simp [hpermits, htaken, eq_comm]
    · simp [hpermits, htaken]
  · simp [hpermits, eq_comm]

theorem register_eq_ok {r' : Registry} : r.register p = .ok r' ↔
    Permits r.allowed p.id ∧ p.id ∉ r.ids ∧ r' = { r with plugins := r.plugins ++ [p] } := by
  rw [register_eq]
  by_cases hpermits : Permits r.allowed p.id
  · by_cases htaken : p.id ∈ r.ids
    · simp [hpermits, htaken]
    · simp [hpermits, htaken, eq_comm]
  · simp [hpermits]

theorem plugins_of_register {r' : Registry} (h : r.register p = .ok r') :
    r'.plugins = r.plugins ++ [p] := by
  obtain ⟨-, -, rfl⟩ := register_eq_ok.mp h
  rfl

/-! ## Calls in a row -/

theorem mem_of_mem_registerAll {ps : List Plugin} {r : Registry} {p : Plugin}
    (h : p ∈ (r.registerAll ps).plugins) : p ∈ r.plugins ∨ p ∈ ps := by
  induction ps generalizing r with
  | nil => exact .inl h
  | cons q ps ih =>
    rw [List.mem_cons]
    cases hregister : r.register q with
    | error e =>
      rw [registerAll, List.foldl_cons, hregister] at h
      exact (ih h).imp_right .inr
    | ok r' =>
      rw [registerAll, List.foldl_cons, hregister] at h
      rcases ih h with hr' | hps
      · rw [plugins_of_register hregister, List.mem_append, List.mem_singleton] at hr'
        exact hr'.imp_right .inl
      · exact .inr (.inr hps)

/-- A new registry after calls, each with one of the plugins. -/
def afterCalls (allowed : List String) (ps : List Plugin) : Registry :=
  registerAll { allowed := allowed } ps

variable {allowed : List String} {ps : List Plugin}

theorem afterCalls_concat (allowed : List String) (ps : List Plugin) (p : Plugin) :
    afterCalls allowed (ps ++ [p]) = match (afterCalls allowed ps).register p with
      | .ok r' => r'
      | .error _ => afterCalls allowed ps := by
  rw [afterCalls, registerAll, List.foldl_concat]
  rfl

theorem afterCalls_of_error {e : Refusal} (h : (afterCalls allowed ps).register p = .error e) :
    afterCalls allowed (ps ++ [p]) = afterCalls allowed ps := by
  rw [afterCalls_concat, h]

theorem afterCalls_of_ok {r' : Registry} (h : (afterCalls allowed ps).register p = .ok r') :
    afterCalls allowed (ps ++ [p]) = r' := by
  rw [afterCalls_concat, h]

@[simp] theorem allowed_afterCalls : (afterCalls allowed ps).allowed = allowed := by
  induction ps using List.reverseRecOn with
  | nil => rfl
  | append_singleton ps p ih =>
    cases hregister : (afterCalls allowed ps).register p with
    | error e => rw [afterCalls_of_error hregister, ih]
    | ok r' =>
      obtain ⟨-, -, rfl⟩ := register_eq_ok.mp hregister
      rw [afterCalls_of_ok hregister, ih]

/-- The ids that were submitted and are permitted, each at its first place. -/
theorem ids_afterCalls (allowed : List String) (ps : List Plugin) :
    (afterCalls allowed ps).ids =
      Job.distinct ((ps.map (·.id)).filter fun id => Permits allowed id) := by
  induction ps using List.reverseRecOn with
  | nil => rfl
  | append_singleton ps p ih =>
    rw [List.map_append, List.map_singleton, List.filter_append]
    cases hregister : (afterCalls allowed ps).register p with
    | error e =>
      rw [afterCalls_of_error hregister, ih]
      rcases register_eq_error.mp hregister with ⟨hforbidden, -⟩ | ⟨-, htaken, -⟩
      · rw [allowed_afterCalls] at hforbidden
        rw [List.filter_singleton, decide_eq_false hforbidden]
        simp
      · rw [ih, Job.mem_distinct] at htaken
        have hpermits : Permits allowed p.id := of_decide_eq_true (List.mem_filter.mp htaken).2
        rw [List.filter_singleton, decide_eq_true hpermits, cond_true, Job.distinct_concat,
          if_pos htaken]
    | ok r' =>
      obtain ⟨hpermits, hfree, rfl⟩ := register_eq_ok.mp hregister
      rw [allowed_afterCalls] at hpermits
      rw [ih, Job.mem_distinct] at hfree
      rw [afterCalls_of_ok hregister, ids, List.map_append, List.map_singleton, ← ids, ih,
        List.filter_singleton, decide_eq_true hpermits, cond_true, Job.distinct_concat,
        if_neg hfree]

/-- Under an id that is permitted the first plugin submitted with it is found. -/
theorem get?_afterCalls (allowed : List String) (ps : List Plugin) (id : String) :
    (afterCalls allowed ps).get? id =
      if Permits allowed id then ps.find? fun p => p.id = id else none := by
  induction ps using List.reverseRecOn with
  | nil => simp [afterCalls, registerAll, get?]
  | append_singleton ps p ih =>
    by_cases hid : p.id = id
    · subst hid
      cases hregister : (afterCalls allowed ps).register p with
      | error e =>
        rw [afterCalls_of_error hregister, List.find?_append]
        rcases register_eq_error.mp hregister with ⟨hforbidden, -⟩ | ⟨hpermits, htaken, -⟩
        · rw [allowed_afterCalls] at hforbidden
          rw [ih, if_neg hforbidden, if_neg hforbidden]
        · rw [allowed_afterCalls] at hpermits
          rw [if_pos hpermits] at ih
          obtain ⟨q, hq⟩ := Option.ne_none_iff_exists'.mp (mt get?_eq_none.mp (not_not.mpr htaken))
          rw [if_pos hpermits, ← ih, hq, Option.some_or]
      | ok r' =>
        obtain ⟨hpermits, -, rfl⟩ := register_eq_ok.mp hregister
        rw [allowed_afterCalls] at hpermits
        rw [if_pos hpermits] at ih
        rw [afterCalls_of_ok hregister, get?, List.find?_append, ← get?, ih, List.find?_append,
          if_pos hpermits]
    · have hmiss : [p].find? (fun q => q.id = id) = none := by simp [hid]
      rw [List.find?_append, hmiss, Option.or_none, ← ih]
      cases hregister : (afterCalls allowed ps).register p with
      | error e => rw [afterCalls_of_error hregister]
      | ok r' =>
        obtain ⟨-, -, rfl⟩ := register_eq_ok.mp hregister
        rw [afterCalls_of_ok hregister, get?, List.find?_append, hmiss, Option.or_none, get?]

/-! ## What is registered -/

/-- A registry with the plugins that were submitted under permitted ids, each under its id unless
an earlier one has it; the ids stand in the order in which they came first. -/
structure Holds (r : Registry) (allowed : List String) (ps : List Plugin) : Prop where
  nodup_ids : r.ids.Nodup
  mem_ids : ∀ id, id ∈ r.ids ↔ Permits allowed id ∧ ∃ p ∈ ps, p.id = id
  inOrder : r.ids.Pairwise fun u v => (ps.map (·.id)).idxOf u < (ps.map (·.id)).idxOf v
  get? : ∀ id p, r.get? id = some p ↔ Permits allowed id ∧ p.id = id ∧
    ∃ before after, ps = before ++ p :: after ∧ ∀ q ∈ before, q.id ≠ id

theorem holds_afterCalls (allowed : List String) (ps : List Plugin) :
    (afterCalls allowed ps).Holds allowed ps := by
  have hids := ids_afterCalls allowed ps
  constructor
  · rw [hids]
    exact Job.nodup_distinct _
  · intro id
    rw [hids, Job.mem_distinct, List.mem_filter, List.mem_map, decide_eq_true_iff, and_comm]
  · rw [hids, Job.distinct_filter]
    exact (Job.pairwise_idxOf_distinct _).filter _
  · intro id p
    rw [get?_afterCalls]
    split
    · next hpermits => simp [hpermits, List.find?_eq_some_iff_append]
    · next hforbidden => simp [hforbidden]

/-- After any calls a registry holds the plugins that came first under permitted ids, and its views
agree. A call is refused if and only if its id is not permitted or came before, and a call that was
refused leaves the registry as it is. Any other call puts its plugin behind the others. -/
theorem afterCalls_settled (allowed : List String) (ps : List Plugin) :
    (afterCalls allowed ps).Holds allowed ps ∧ (afterCalls allowed ps).Agrees ∧
    ∀ p, (∀ e, (afterCalls allowed ps).register p = .error e ↔
        ¬Permits allowed p.id ∧ e = .notAllowed p.id ∨
          Permits allowed p.id ∧ (∃ q ∈ ps, q.id = p.id) ∧ e = .taken p.id) ∧
      (∀ e, (afterCalls allowed ps).register p = .error e →
        afterCalls allowed (ps ++ [p]) = afterCalls allowed ps) ∧
      ∀ r, (afterCalls allowed ps).register p = .ok r →
        afterCalls allowed (ps ++ [p]) = r ∧
          r.plugins = (afterCalls allowed ps).plugins ++ [p] := by
  have hholds := holds_afterCalls allowed ps
  refine ⟨hholds, .of_nodup hholds.nodup_ids, fun p => ⟨fun e => ?_, ?_, ?_⟩⟩
  · rw [register_eq_error, allowed_afterCalls, hholds.mem_ids]
    exact or_congr_right (and_congr_right fun hpermits => by rw [and_iff_right hpermits])
  · exact fun e hregister => afterCalls_of_error hregister
  · exact fun r hregister => ⟨afterCalls_of_ok hregister, plugins_of_register hregister⟩

end Registry
end ProjectComposer
