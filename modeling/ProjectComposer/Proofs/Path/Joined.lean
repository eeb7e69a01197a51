import ProjectComposer.Proofs.Path.Fixed

/-!
Joined paths. Normal paths keep all of their characters when they are joined, with one slash between
them, and empty parts leave no trace. So a property of normal paths that goes over from two paths to
the one that leads through both holds of whatever is joined of such parts. Parts may be joined in
any steps, for what is joined has no slashes around.
-/
namespace ProjectComposer.Path
set_option autoImplicit false

variable {a b path : String} {parts : List String}

theorem IsNormal.append (ha : IsNormal a) (hb : IsNormal b) : IsNormal (a ++ "/" ++ b) := by
  refine isNormal_of_names ?_ ?_
  · change ∀ s ∈ names (a ++ "/" ++ b), IsName s
    rw [names_append]
    exact List.forall_mem_append.mpr ⟨ha.isName, hb.isName⟩
  · simp [ha.backslash_not_mem, hb.backslash_not_mem]

theorem IsNormal.trimSlashes_eq (h : IsNormal path) : trimSlashes path.toList = path.toList := by
  refine Text.trimBy_eq_self (fun c hc => ?_) fun c hc => ?_
  · have hne : c ≠ '/' := fun heq => h.head_ne_slash (heq ▸ hc)
    exact decide_eq_false hne
  · have hne : c ≠ '/' := fun heq => h.last_ne_slash (heq ▸ hc)
    exact decide_eq_false hne

/-! ## Parts that are kept -/

/-- The parts that are joined: those with something besides slashes, without the outer ones. -/
def kept (parts : List String) : List Segment :=
  (parts.map fun p => trimSlashes p.toList).filter fun p => !p.isEmpty

theorem toList_join (parts : List String) :
    (join parts).toList = Text.joinAt '/' (kept parts) :=
  String.toList_ofList

theorem kept_append (parts more : List String) :
    kept (parts ++ more) = kept parts ++ kept more := by
  rw [kept, List.map_append, List.filter_append, kept, kept]

theorem kept_singleton (p : String) :
    kept [p] = if trimSlashes p.toList = [] then [] else [trimSlashes p.toList] := by
  by_cases h : trimSlashes p.toList = [] <;> simp [kept, h]

/-- A text without slashes around. -/
abbrev HasNoOuterSlash (cs : List Char) : Prop :=
  Text.IsTrimmed (· = '/') cs

theorem mem_kept {s : Segment} (h : s ∈ kept parts) : s ≠ [] ∧ HasNoOuterSlash s := by
  obtain ⟨hmem, hne⟩ := List.mem_filter.mp h
  obtain ⟨p, -, rfl⟩ := List.mem_map.mp hmem
  exact ⟨by simpa using hne, Text.isTrimmed_trimBy _ _⟩

/-- What is joined shows no outer slash that its parts do not show. -/
theorem joinAt_hasNoOuterSlash {pieces : List Segment} (hne : pieces ≠ [])
    (h : ∀ s ∈ pieces, s ≠ [] ∧ HasNoOuterSlash s) :
    Text.joinAt '/' pieces ≠ [] ∧ HasNoOuterSlash (Text.joinAt '/' pieces) := by
  induction pieces with
  | nil => exact absurd rfl hne
  | cons s pieces ih =>
    obtain ⟨⟨hs, htrimmed⟩, hpieces⟩ := List.forall_mem_cons.mp h
    by_cases hmore : pieces = []
    · subst hmore
      simpa [Text.joinAt] using And.intro hs htrimmed
    · obtain ⟨hjoined, hend⟩ := ih hmore hpieces
      rw [Text.joinAt_cons s hmore]
      refine ⟨by simp, fun c hc => htrimmed.first c ?_, fun c hc => hend.last c ?_⟩
      · rwa [List.head?_append_of_ne_nil _ hs] at hc
      · rwa [List.getLast?_append_of_ne_nil _ (List.cons_ne_nil _ _),
          List.getLast?_cons_of_ne_nil hjoined] at hc

theorem kept_join (parts : List String) :
    kept [join parts] = if kept parts = [] then [] else [Text.joinAt '/' (kept parts)] := by
  rw [kept_singleton, toList_join]
  by_cases hnone : kept parts = []
  · rw [hnone]
    rfl
  · obtain ⟨hne, hends⟩ := joinAt_hasNoOuterSlash hnone fun s => mem_kept
    have hself : trimSlashes (Text.joinAt '/' (kept parts)) = Text.joinAt '/' (kept parts) :=
      Text.trimBy_eq_self_iff.mpr hends
    rw [hself, if_neg hne, if_neg hnone]

/-- Parts that were joined before join with others as they would have alone. -/
theorem join_join (parts more : List String) :
    join (join parts :: more) = join (parts ++ more) := by
  apply String.toList_injective
  rw [toList_join, toList_join, ← List.singleton_append, kept_append, kept_append, kept_join]
  split
  · next hnone => rw [hnone]
  · next hsome =>
    by_cases hmore : kept more = []
    · rw [hmore, List.append_nil, List.append_nil]
      simp [Text.joinAt]
    · rw [List.singleton_append, Text.joinAt_cons _ hmore, Text.joinAt_append hsome hmore]

theorem join_eq_empty : join parts = "" ↔ kept parts = [] := by
  rw [← String.toList_inj, toList_join]
  constructor
  · intro h
    by_contra hsome
    exact (joinAt_hasNoOuterSlash hsome fun s => mem_kept).1 h
  · intro h
    rw [h]
    rfl

/-! ## First parts -/

/-- A part that consists of slashes joins nothing. -/
theorem join_cons_of_slashes (h : trimSlashes path.toList = []) (parts : List String) :
    join (path :: parts) = join parts := by
  apply String.toList_injective
  rw [toList_join, toList_join, ← List.singleton_append, kept_append, kept_singleton, if_pos h,
    List.nil_append]

/-- Any other part in front of what is joined behind it. -/
theorem join_cons_of_ne_nil (h : trimSlashes path.toList ≠ []) (parts : List String) :
    join (path :: parts) = if join parts = "" then String.ofList (trimSlashes path.toList)
      else String.ofList (trimSlashes path.toList) ++ "/" ++ join parts := by
  apply String.toList_injective
  rw [toList_join, ← List.singleton_append, kept_append, kept_singleton, if_neg h]
  split
  · next hnone =>
    rw [join_eq_empty.mp hnone]
    simp [Text.joinAt]
  · next hsome =>
    rw [List.singleton_append, Text.joinAt_cons _ (mt join_eq_empty.mpr hsome), toList_below,
      toList_join, String.toList_ofList]

/-- A normal path in front of what is joined behind it. -/
theorem join_cons (h : IsNormal path) (parts : List String) :
    join (path :: parts) = if join parts = "" then path else path ++ "/" ++ join parts := by
  have hne : trimSlashes path.toList ≠ [] := by simpa [h.trimSlashes_eq] using h.ne_empty
  rw [join_cons_of_ne_nil hne, h.trimSlashes_eq, String.ofList_toList]

theorem join_pair (ha : IsNormal a) (hb : IsNormal b) : join [a, b] = a ++ "/" ++ b := by
  have hlast : join [b] = b := join_cons hb []
  rw [join_cons ha, hlast, if_neg hb.ne_empty]

/-- What is joined of empty parts and parts with a property is empty or has the property, where two
paths hand it on to the one that leads through both. -/
theorem join_induction {P : String → Prop} (hnormal : ∀ p, P p → IsNormal p)
    (happend : ∀ a b, P a → P b → P (a ++ "/" ++ b)) (h : ∀ p ∈ parts, p = "" ∨ P p) :
    join parts = "" ∨ P (join parts) := by
  induction parts with
  | nil => exact .inl rfl
  | cons p parts ih =>
    obtain ⟨hp, hparts⟩ := List.forall_mem_cons.mp h
    rcases hp with rfl | hp
    · exact ih hparts
    · right
      rw [join_cons (hnormal p hp)]
      split
      · exact hp
      · next hne => exact happend p _ hp ((ih hparts).resolve_left hne)

end ProjectComposer.Path
