import ProjectComposer.Proofs.Path.Joined

/-!
Plain paths. Normalization leaves a path alone if its names are made of characters without a meaning
of their own: no blanks, backslashes and colons.
-/
namespace ProjectComposer
set_option autoImplicit false

namespace Path

/-! ## Plain names -/

/-- A character without a meaning of its own in a path. -/
def IsPlainChar (c : Char) : Prop :=
  Text.isBlank c = false ∧ c ≠ '\\' ∧ c ≠ ':'

instance (c : Char) : Decidable (IsPlainChar c) :=
  inferInstanceAs (Decidable (_ ∧ _))

instance (s : Segment) : Decidable (IsName s) :=
  decidable_of_iff (s ≠ [] ∧ s ≠ dot ∧ s ≠ dotDot)
    ⟨fun h => ⟨h.1, h.2.1, h.2.2⟩, fun h => ⟨h.ne_nil, h.ne_dot, h.ne_dotDot⟩⟩

structure IsPlainName (s : Segment) : Prop where
  isName : IsName s
  isPlainChar : ∀ c ∈ s, IsPlainChar c

-- Given here, for the search would find an instance that goes through all characters there are.
instance (s : Segment) : Decidable (∀ c ∈ s, IsPlainChar c) :=
  List.decidableBAll IsPlainChar s

instance (s : Segment) : Decidable (IsPlainName s) :=
  decidable_of_iff (IsName s ∧ ∀ c ∈ s, IsPlainChar c)
    ⟨fun h => ⟨h.1, h.2⟩, fun h => ⟨h.isName, h.isPlainChar⟩⟩

/-- A path of plain names. -/
def IsPlain (path : String) : Prop :=
  ∀ s ∈ names path, IsPlainName s

instance (path : String) : Decidable (IsPlain path) :=
  inferInstanceAs (Decidable (∀ s ∈ names path, IsPlainName s))

section IsPlain
variable {path : String}

theorem IsPlain.isPlainChar (h : IsPlain path) : ∀ c ∈ path.toList, IsPlainChar c := by
  intro c hc
  rw [← Text.joinAt_splitAt '/' path.toList] at hc
  rcases Text.mem_joinAt hc with rfl | ⟨s, hs, hcs⟩
  · decide
  · exact (h s hs).isPlainChar c hcs

theorem IsPlain.isNormal (h : IsPlain path) : IsNormal path :=
  isNormal_of_names (fun s hs => (h s hs).isName) fun hback => (h.isPlainChar _ hback).2.1 rfl

theorem IsPlain.isTrimmed (h : IsPlain path) : Text.IsTrimmed Text.isBlank path.toList where
  first c hc := (h.isPlainChar c (List.mem_of_head? hc)).1
  last c hc := (h.isPlainChar c (List.mem_of_getLast? hc)).1

/-- A drive has a colon. -/
theorem IsPlain.not_isDrive (h : IsPlain path) : ¬IsDrive path.toList := by
  rintro ⟨c, -, hdrive⟩
  have hcolon : ':' ∈ path.toList := hdrive.subset (by simp)
  exact (h.isPlainChar _ hcolon).2.2 rfl

theorem IsPlain.append {a b : String} (ha : IsPlain a) (hb : IsPlain b) :
    IsPlain (a ++ "/" ++ b) := by
  unfold IsPlain
  rw [names_append]
  exact List.forall_mem_append.mpr ⟨ha, hb⟩

/-- A plain path is its own normal form. -/
theorem IsPlain.normalize_eq (h : IsPlain path) : normalize path = .ok path :=
  h.isNormal.normalize_eq_self_iff.mpr ⟨h.isTrimmed, h.not_isDrive⟩

end IsPlain

end Path
end ProjectComposer
