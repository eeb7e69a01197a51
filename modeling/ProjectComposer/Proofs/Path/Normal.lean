import ProjectComposer.Path.Normal
import ProjectComposer.Proofs.Text.Segments

/-!
Normal paths lead below the directory they start from. Resolving dots keeps the segments with names
on top of those that found nothing to remove, so a result whose first segment is no `..` holds names
alone. Whatever normalization accepts is a normal path, and from any directory such a path goes down
by its segments one after the other.
-/
namespace ProjectComposer.Path
set_option autoImplicit false

/-! ## Names -/

/-- A segment that names something in a directory. -/
structure IsName (s : Segment) : Prop where
  ne_nil : s ≠ []
  ne_dot : s ≠ dot
  ne_dotDot : s ≠ dotDot

/-- A stack of names that were met, above the `..` that had none to remove. -/
def IsStack (met : Segment → Prop) (stack : List Segment) : Prop :=
  ∃ names n, stack = names ++ List.replicate n dotDot ∧ ∀ s ∈ names, IsName s ∧ met s

section Stack
variable {met : Segment → Prop} {stack : List Segment}

theorem isStack_push (h : IsStack met stack) {s : Segment} (hs : met s) :
    IsStack met (push stack s) := by
  obtain ⟨names, n, rfl, hnames⟩ := h
  unfold push
  split
  · exact ⟨names, n, rfl, hnames⟩
  · next hskip =>
    rw [not_or] at hskip
    split
    · -- With names in the stack the last one goes; otherwise there is one `..` more.
      cases names with
      | nil =>
        refine ⟨[], n + 1, ?_, by simp⟩
        cases n with
        | zero => rfl
        | succ n => simp [List.replicate_succ]
      | cons top rest =>
        obtain ⟨⟨htop, -⟩, hrest⟩ := List.forall_mem_cons.mp hnames
        refine ⟨rest, n, ?_, hrest⟩
        rw [List.cons_append]
        dsimp only
        rw [if_neg htop.ne_dotDot]
    · next hup =>
      exact ⟨s :: names, n, rfl, List.forall_mem_cons.mpr ⟨⟨⟨hskip.1, hskip.2, hup⟩, hs⟩, hnames⟩⟩

theorem isStack_foldl (h : IsStack met stack) {segments : List Segment}
    (hmet : ∀ s ∈ segments, met s) : IsStack met (segments.foldl push stack) := by
  induction segments generalizing stack with
  | nil => exact h
  | cons s segments ih =>
    obtain ⟨hs, hrest⟩ := List.forall_mem_cons.mp hmet
    exact ih (isStack_push h hs) hrest

/-- A path that does not begin by leading up holds names that are in it. -/
theorem isName_of_collapse {segments rest : List Segment} {s : Segment}
    (h : collapse segments = s :: rest) (hs : s ≠ dotDot) :
    ∀ t ∈ s :: rest, IsName t ∧ t ∈ segments := by
  have hstart : IsStack (· ∈ segments) [] := ⟨[], 0, rfl, by simp⟩
  obtain ⟨names, n, hstack, hnames⟩ := isStack_foldl hstart fun _ => id
  rw [collapse, hstack, List.reverse_append, List.reverse_replicate] at h
  cases n with
  | succ n =>
    rw [List.replicate_succ, List.cons_append] at h
    exact absurd (List.cons.inj h).1.symm hs
  | zero =>
    intro t ht
    rw [← h] at ht
    exact hnames t (by simpa using ht)

end Stack

theorem push_of_isName {s : Segment} (hs : IsName s) (stack : List Segment) :
    push stack s = s :: stack := by
  unfold push
  rw [if_neg (not_or.mpr ⟨hs.ne_nil, hs.ne_dot⟩), if_neg hs.ne_dotDot]

theorem collapse_of_names {segments : List Segment} (h : ∀ s ∈ segments, IsName s) :
    collapse segments = segments := by
  have hfold : ∀ stack : List Segment, segments.foldl push stack = segments.reverse ++ stack := by
    induction segments with
    | nil => exact fun stack => rfl
    | cons s segments ih =>
      intro stack
      obtain ⟨hs, hrest⟩ := List.forall_mem_cons.mp h
      rw [List.foldl_cons, push_of_isName hs, ih hrest, List.reverse_cons, List.append_assoc,
        List.singleton_append]
  rw [collapse, hfold, List.append_nil, List.reverse_reverse]

/-! ## Normal paths -/

/-- The names along a path. -/
def names (path : String) : List Segment :=
  Text.splitAt '/' path.toList

theorem names_ne_nil (path : String) : names path ≠ [] :=
  Text.splitAt_ne_nil '/' path.toList

theorem toList_below (a b : String) : (a ++ "/" ++ b).toList = a.toList ++ '/' :: b.toList := by
  simp

theorem names_append (a b : String) : names (a ++ "/" ++ b) = names a ++ names b := by
  rw [names, toList_below, Text.splitAt_append_cons, names, names]

/-- One or more names with single slashes between them. -/
structure IsNormal (path : String) : Prop where
  ne_empty : path ≠ ""
  backslash_not_mem : '\\' ∉ path.toList
  head_ne_slash : path.toList.head? ≠ some '/'
  last_ne_slash : path.toList.getLast? ≠ some '/'
  isName : ∀ s ∈ Text.splitAt '/' path.toList, IsName s

/-- Where a path leads, one segment after the other, from a directory that is given by the names
from the root on. -/
def step (directory : List Segment) (s : Segment) : List Segment :=
  if s = [] ∨ s = dot then directory
  else if s = dotDot then directory.dropLast
  else directory ++ [s]

/-- What a path means in a directory; an absolute path starts at the root of the file system. -/
def resolve (directory : List Segment) (path : String) : List Segment :=
  (Text.splitAt '/' path.toList).foldl step
    (if path.toList.head? = some '/' then [] else directory)

section IsNormal
variable {path : String}

/-- No slash can stand at either end, for there would be an empty segment. -/
theorem isNormal_of_names (hnames : ∀ s ∈ Text.splitAt '/' path.toList, IsName s)
    (hback : '\\' ∉ path.toList) : IsNormal path := by
  have hnil : [] ∉ Text.splitAt '/' path.toList := fun h => (hnames [] h).ne_nil rfl
  refine ⟨?_, hback, ?_, ?_, hnames⟩
  · rintro rfl
    exact hnil List.mem_cons_self
  · intro h
    obtain ⟨rest, hrest⟩ := List.head?_eq_some_iff.mp h
    rw [hrest, Text.splitAt, if_pos rfl] at hnil
    exact hnil List.mem_cons_self
  · intro h
    obtain ⟨start, hstart⟩ := List.getLast?_eq_some_iff.mp h
    rw [hstart] at hnil
    exact hnil (Text.nil_mem_splitAt_concat '/' start)

theorem isNormal_joinAt {segments : List Segment} (hne : segments ≠ [])
    (h : ∀ s ∈ segments, IsName s ∧ '/' ∉ s ∧ '\\' ∉ s) :
    IsNormal (String.ofList (Text.joinAt '/' segments)) := by
  have hcut : Text.splitAt '/' (Text.joinAt '/' segments) = segments :=
    Text.splitAt_joinAt hne fun s hs => (h s hs).2.1
  refine isNormal_of_names ?_ ?_
  · rw [String.toList_ofList, hcut]
    exact fun s hs => (h s hs).1
  · rw [String.toList_ofList]
    intro hback
    rcases Text.mem_joinAt hback with hslash | ⟨s, hs, hback⟩
    · cases hslash
    · exact (h s hs).2.2 hback

theorem foldl_step {names directory : List Segment} (h : ∀ s ∈ names, IsName s) :
    names.foldl step directory = directory ++ names := by
  induction names generalizing directory with
  | nil => simp
  | cons s names ih =>
    obtain ⟨hs, hrest⟩ := List.forall_mem_cons.mp h
    have hstep : step directory s = directory ++ [s] := by
      rw [step, if_neg (not_or.mpr ⟨hs.ne_nil, hs.ne_dot⟩), if_neg hs.ne_dotDot]
    rw [List.foldl_cons, hstep, ih hrest, List.append_assoc, List.singleton_append]

/-- A normal path leads down from any directory, through one name after the other. -/
theorem IsNormal.exists_resolve_eq (h : IsNormal path) : ∃ names, names ≠ [] ∧
    path.toList = Text.joinAt '/' names ∧ ∀ root, resolve root path = root ++ names := by
  refine ⟨_, Text.splitAt_ne_nil '/' path.toList, (Text.joinAt_splitAt '/' _).symm, fun root => ?_⟩
  rw [resolve, if_neg h.head_ne_slash, foldl_step h.isName]

end IsNormal

/-! ## Normalization -/

theorem normalize_eq_ok {path q : String} : normalize path = .ok q ↔
    cleaned path ≠ [] ∧ isAbsolute (cleaned path) = false ∧
      ∃ s rest, collapse (Text.splitAt '/' (cleaned path)) = s :: rest ∧ s ≠ dotDot ∧
        q = String.ofList (Text.joinAt '/' (s :: rest)) := by
  unfold normalize
  dsimp only
  split
  · next h =>
    refine iff_of_false (by simp) ?_
    rintro ⟨hne, habs, -⟩
    rcases h with h | h
    · exact hne h
    · rw [habs] at h
      cases h
  · next h =>
    obtain ⟨hne, habs⟩ := not_or.mp h
    rw [and_iff_right hne, and_iff_right (Bool.eq_false_iff.mpr habs)]
    split
    · next hnil => simp [hnil]
    · next s rest hcons =>
      by_cases hs : s = dotDot
      · simp [hcons, hs]
      · simp [hcons, hs, eq_comm]

theorem backslash_not_mem_cleaned (path : String) : '\\' ∉ cleaned path := fun h =>
  Text.backslash_not_mem_forwardSlashes _ (Text.mem_of_mem_trimBy h)

theorem isNormal_of_normalize {path q : String} (h : normalize path = .ok q) : IsNormal q := by
  obtain ⟨-, -, s, rest, hcollapse, hs, rfl⟩ := normalize_eq_ok.mp h
  refine isNormal_joinAt (List.cons_ne_nil s rest) fun t ht => ?_
  obtain ⟨hname, hmem⟩ := isName_of_collapse hcollapse hs t ht
  refine ⟨hname, Text.not_mem_of_mem_splitAt hmem, fun hback => ?_⟩
  exact backslash_not_mem_cleaned path (Text.mem_of_mem_splitAt hmem hback).1

end ProjectComposer.Path
