import ProjectComposer.Proofs.Path.Normal
import ProjectComposer.Proofs.Text.Trimmed

/-!
Normalization as a walk. The segments of a path are walked in turn from the root of a project, over
the names that lie between the root and where the walk is. A `..` at the root ends the walk, whereas
resolving dots keeps it and goes on. It is never removed again, so the front of the resolved path
tells whether the root was left at any time. The paths that are accepted are the relative ones that
lead through the inside of the project to a place below its root, and the result names that place.
-/
namespace ProjectComposer.Path
set_option autoImplicit false

/-! ## Walks -/

/-- One segment further, from the names between the root and here, last first. Nothing leads up from
the root. -/
def descendOne (stack : List Segment) (s : Segment) : Option (List Segment) :=
  if s = [] ∨ s = dot then some stack
  else if s = dotDot then
    match stack with
    | [] => none
    | _ :: rest => some rest
  else some (s :: stack)

/-- The names from the root to where the segments lead, if they do so without leaving the root. -/
def descend (segments : List Segment) : Option (List Segment) :=
  (segments.foldlM descendOne []).map List.reverse

section Descend
variable {stack out : List Segment} {segments names : List Segment} {s : Segment}

/-- Once there is a `..` in the stack, no segment removes it. -/
theorem dotDot_mem_push (h : dotDot ∈ stack) (s : Segment) : dotDot ∈ push stack s := by
  unfold push
  split
  · exact h
  · split
    · cases stack with
      | nil => cases h
      | cons top rest =>
        by_cases htop : top = dotDot
        · simp [htop]
        · have hrest : dotDot ∈ rest := (List.mem_cons.mp h).resolve_left (Ne.symm htop)
          simp [htop, hrest]
    · exact List.mem_cons_of_mem s h

theorem dotDot_mem_foldl_push (h : dotDot ∈ stack) : dotDot ∈ segments.foldl push stack := by
  induction segments generalizing stack with
  | nil => exact h
  | cons s segments ih => exact ih (dotDot_mem_push h s)

/-- A step of the walk is a step of resolving dots that leaves no `..` behind. -/
theorem descendOne_eq_some (h : dotDot ∉ stack) :
    descendOne stack s = some out ↔ push stack s = out ∧ dotDot ∉ out := by
  unfold descendOne push
  by_cases hskip : s = [] ∨ s = dot
  · rw [if_pos hskip, if_pos hskip, Option.some.injEq]
    exact (and_iff_left_of_imp fun heq => heq ▸ h).symm
  · rw [if_neg hskip, if_neg hskip]
    by_cases hup : s = dotDot
    · rw [if_pos hup, if_pos hup]
      cases stack with
      | nil =>
        refine iff_of_false (by simp) ?_
        rintro ⟨rfl, hout⟩
        exact hout List.mem_cons_self
      | cons top rest =>
        have htop : top ≠ dotDot := Ne.symm (List.ne_of_not_mem_cons h)
        have hrest : dotDot ∉ rest := List.not_mem_of_not_mem_cons h
        dsimp only
        rw [if_neg htop, Option.some.injEq]
        exact (and_iff_left_of_imp fun heq => heq ▸ hrest).symm
    · rw [if_neg hup, if_neg hup, Option.some.injEq]
      have hkept : dotDot ∉ s :: stack := List.not_mem_cons_of_ne_of_not_mem (Ne.symm hup) h
      exact (and_iff_left_of_imp fun heq => heq ▸ hkept).symm

theorem foldlM_descendOne_eq_some (h : dotDot ∉ stack) :
    segments.foldlM descendOne stack = some out ↔
      segments.foldl push stack = out ∧ dotDot ∉ out := by
  induction segments generalizing stack with
  | nil =>
    rw [List.foldlM_nil, List.foldl_nil, Option.pure_def, Option.some.injEq]
    exact (and_iff_left_of_imp fun heq => heq ▸ h).symm
  | cons s segments ih =>
    rw [List.foldlM_cons, List.foldl_cons, Option.bind_eq_bind, Option.bind_eq_some_iff]
    constructor
    · rintro ⟨next, hnext, hout⟩
      obtain ⟨rfl, hclean⟩ := (descendOne_eq_some h).mp hnext
      exact (ih hclean).mp hout
    · rintro ⟨heq, hout⟩
      -- A `..` left by this step would still be there at the end.
      have hclean : dotDot ∉ push stack s := fun hlost => hout (heq ▸ dotDot_mem_foldl_push hlost)
      exact ⟨push stack s, (descendOne_eq_some h).mpr ⟨rfl, hclean⟩, (ih hclean).mpr ⟨heq, hout⟩⟩

theorem descend_eq_some :
    descend segments = some names ↔ collapse segments = names ∧ dotDot ∉ names := by
  unfold descend collapse
  rw [Option.map_eq_some_iff]
  simp only [foldlM_descendOne_eq_some List.not_mem_nil]
  constructor
  · rintro ⟨stack, ⟨hstack, hclean⟩, rfl⟩
    exact ⟨congrArg List.reverse hstack, by simpa using hclean⟩
  · rintro ⟨rfl, hclean⟩
    exact ⟨_, ⟨rfl, by simpa using hclean⟩, rfl⟩

/-- The front of a resolved path tells whether there is a `..` anywhere in it. -/
theorem descend_eq_some_cons {rest : List Segment} :
    descend segments = some (s :: rest) ↔ collapse segments = s :: rest ∧ s ≠ dotDot := by
  rw [descend_eq_some]
  refine and_congr_right fun hcollapse => ⟨fun h heq => h (heq ▸ List.mem_cons_self), fun hs => ?_⟩
  exact fun hmem => (isName_of_collapse hcollapse hs _ hmem).1.ne_dotDot rfl

theorem descend_eq_none :
    descend segments = none ↔ ∃ rest, collapse segments = dotDot :: rest := by
  rw [Option.eq_none_iff_forall_ne_some]
  simp only [ne_eq, descend_eq_some]
  constructor
  · intro h
    cases hcollapse : collapse segments with
    | nil => exact absurd ⟨hcollapse, List.not_mem_nil⟩ (h [])
    | cons s rest =>
      refine ⟨rest, ?_⟩
      by_contra hne
      have hs : s ≠ dotDot := fun heq => hne (by rw [heq])
      exact h (s :: rest) (descend_eq_some.mp (descend_eq_some_cons.mpr ⟨hcollapse, hs⟩))
  · rintro ⟨rest, hrest⟩ names ⟨hcollapse, hclean⟩
    rw [← hcollapse, hrest] at hclean
    exact hclean List.mem_cons_self

/-- The walk is over where it leaves the root, also if it would come back. -/
example : descend [['a'], dotDot, dotDot, ['b']] = none := rfl

end Descend

/-! ## Relative texts -/

/-- A drive stands in front, that is a letter with a colon and a slash behind it. -/
def IsDrive (cs : List Char) : Prop :=
  ∃ c, isAsciiLetter c = true ∧ [c, ':', '/'] <+: cs

/-- Neither empty nor at the root of a file system or of a drive. -/
structure IsRelative (cs : List Char) : Prop where
  ne_nil : cs ≠ []
  not_rooted : ¬['/'] <+: cs
  not_isDrive : ¬IsDrive cs

theorem isAbsolute_eq_true {cs : List Char} : isAbsolute cs = true ↔ ['/'] <+: cs ∨ IsDrive cs := by
  unfold isAbsolute IsDrive
  split
  · simp
  · next c rest hslash =>
    have hne : '/' ≠ c := fun heq => hslash heq.symm
    simp [hne]
  · next hslash hdrive =>
    refine iff_of_false Bool.false_ne_true ?_
    rintro (⟨rest, rfl⟩ | ⟨c, -, rest, rfl⟩)
    · exact hslash _ rfl
    · exact hdrive _ _ rfl

theorem isRelative_iff {cs : List Char} : IsRelative cs ↔ ¬(cs = [] ∨ isAbsolute cs = true) := by
  rw [isAbsolute_eq_true, not_or, not_or]
  exact ⟨fun h => ⟨h.ne_nil, h.not_rooted, h.not_isDrive⟩, fun h => ⟨h.1, h.2.1, h.2.2⟩⟩

/-! ## Normalization -/

section Normalize
variable {path q : String}

theorem normalize_eq_absolute :
    normalize path = .error (.absolute path) ↔ ¬IsRelative (cleaned path) := by
  rw [isRelative_iff, not_not]
  unfold normalize
  dsimp only
  split
  · next h => exact iff_of_true rfl h
  · next h =>
    refine iff_of_false ?_ h
    split
    · simp
    · split
      · simp
      · simp

theorem normalize_eq_ok_iff_descend : normalize path = .ok q ↔ IsRelative (cleaned path) ∧
    ∃ names, descend (Text.splitAt '/' (cleaned path)) = some names ∧ names ≠ [] ∧
      q = String.ofList (Text.joinAt '/' names) := by
  rw [normalize_eq_ok, ← and_assoc]
  have hrelative : cleaned path ≠ [] ∧ isAbsolute (cleaned path) = false ↔
      IsRelative (cleaned path) := by
    rw [isRelative_iff, not_or, Bool.not_eq_true]
  rw [hrelative]
  refine and_congr_right fun _ => ?_
  constructor
  · rintro ⟨s, rest, hcollapse, hs, rfl⟩
    exact ⟨s :: rest, descend_eq_some_cons.mpr ⟨hcollapse, hs⟩, List.cons_ne_nil s rest, rfl⟩
  · rintro ⟨names, hdescend, hne, rfl⟩
    obtain ⟨s, rest, rfl⟩ := List.exists_cons_of_ne_nil hne
    obtain ⟨hcollapse, hs⟩ := descend_eq_some_cons.mp hdescend
    exact ⟨s, rest, hcollapse, hs, rfl⟩

theorem normalize_eq_outside : normalize path = .error (.outside path) ↔ IsRelative (cleaned path) ∧
    (descend (Text.splitAt '/' (cleaned path)) = none ∨
      descend (Text.splitAt '/' (cleaned path)) = some []) := by
  rw [isRelative_iff, descend_eq_none, descend_eq_some]
  unfold normalize
  dsimp only
  split
  · next h => exact iff_of_false (by simp) fun hnot => hnot.1 h
  · next h =>
    rw [and_iff_right h]
    split
    · next hnil => exact iff_of_true rfl (.inr ⟨hnil, List.not_mem_nil⟩)
    · next s rest hcons =>
      by_cases hs : s = dotDot
      · simp [hcons, hs]
      · simp [hcons, hs]

/-- The cleaned path is the path with its backslashes turned, less the blanks at its ends. If it is
relative and its segments lead from the root to a place below it, without leaving the root on the
way, then normalization gives that place; every other path is refused. -/
theorem normalize_descends (path : String) :
    (∃ front back, (∀ c ∈ front, Text.isBlank c = true) ∧ (∀ c ∈ back, Text.isBlank c = true) ∧
      Text.forwardSlashes path.toList = front ++ cleaned path ++ back ∧
      Text.IsTrimmed Text.isBlank (cleaned path)) ∧
    (∀ q, normalize path = .ok q ↔ IsRelative (cleaned path) ∧
      ∃ names, descend (Text.splitAt '/' (cleaned path)) = some names ∧ names ≠ [] ∧
        q = String.ofList (Text.joinAt '/' names)) ∧
    (normalize path = .error (.absolute path) ↔ ¬IsRelative (cleaned path)) ∧
    (normalize path = .error (.outside path) ↔ IsRelative (cleaned path) ∧
      (descend (Text.splitAt '/' (cleaned path)) = none ∨
        descend (Text.splitAt '/' (cleaned path)) = some [])) := by
  obtain ⟨front, back, hfront, hback, heq⟩ :=
    Text.exists_append_trimBy Text.isBlank (Text.forwardSlashes path.toList)
  refine ⟨⟨front, back, hfront, hback, heq, Text.isTrimmed_trimBy _ _⟩, fun q => ?_, ?_, ?_⟩
  · exact normalize_eq_ok_iff_descend
  · exact normalize_eq_absolute
  · exact normalize_eq_outside

end Normalize
end ProjectComposer.Path
