import Mathlib.Data.List.Basic
import Mathlib.Data.List.TakeWhile
import ProjectComposer.Text.Blank

/-!
Trimming. What is trimmed off a text is a beginning and an end of characters that go, and neither
end of what is left is such a character. A text is left alone exactly if both of its ends stay.
-/
namespace ProjectComposer.Text
set_option autoImplicit false

variable {p : Char → Bool} {cs : List Char}

/-- Neither end of the text is a character that is trimmed off. -/
structure IsTrimmed (p : Char → Bool) (cs : List Char) : Prop where
  first : ∀ c, cs.head? = some c → p c = false
  last : ∀ c, cs.getLast? = some c → p c = false

/-! ## What is left -/

theorem dropWhile_eq_self (h : ∀ c, cs.head? = some c → p c = false) : cs.dropWhile p = cs := by
  cases cs with
  | nil => rfl
  | cons c cs => rw [List.dropWhile_cons, h c rfl, if_neg Bool.false_ne_true]

theorem dropEndWhile_eq_self (h : ∀ c, cs.getLast? = some c → p c = false) :
    dropEndWhile p cs = cs := by
  have hback : cs.reverse.dropWhile p = cs.reverse := by
    apply dropWhile_eq_self
    rwa [List.head?_reverse]
  rw [dropEndWhile, hback, List.reverse_reverse]

theorem trimBy_eq_self (hfirst : ∀ c, cs.head? = some c → p c = false)
    (hlast : ∀ c, cs.getLast? = some c → p c = false) : trimBy p cs = cs := by
  rw [trimBy, dropWhile_eq_self hfirst, dropEndWhile_eq_self hlast]

theorem head?_dropWhile_eq_false {c : Char} (h : (cs.dropWhile p).head? = some c) : p c = false := by
  have hnot := List.head?_dropWhile_not p cs
  rw [h] at hnot
  simpa using hnot

theorem isTrimmed_trimBy (p : Char → Bool) (cs : List Char) : IsTrimmed p (trimBy p cs) := by
  constructor
  · intro c hc
    -- What is dropped at the end leaves the first character alone, unless nothing is left.
    have hbegins : trimBy p cs <+: cs.dropWhile p := by
      rw [trimBy, dropEndWhile, ← List.reverse_suffix, List.reverse_reverse]
      exact List.dropWhile_suffix p
    obtain ⟨rest, hrest⟩ := hbegins
    have hhead : (cs.dropWhile p).head? = some c := by
      rw [← hrest, List.head?_append, hc]
      rfl
    exact head?_dropWhile_eq_false hhead
  · intro c hc
    rw [trimBy, dropEndWhile, List.getLast?_reverse] at hc
    exact head?_dropWhile_eq_false hc

theorem trimBy_eq_self_iff : trimBy p cs = cs ↔ IsTrimmed p cs :=
  ⟨fun h => h ▸ isTrimmed_trimBy p cs, fun h => trimBy_eq_self h.first h.last⟩

theorem dropWhile_append_cons {c : Char} (hc : p c = false) (cs ds : List Char) :
    (cs ++ c :: ds).dropWhile p = cs.dropWhile p ++ c :: ds := by
  induction cs with
  | nil => simp [hc]
  | cons e cs ih =>
    rw [List.cons_append, List.dropWhile_cons, List.dropWhile_cons, ih]
    split
    · rfl
    · rfl

theorem dropEndWhile_append_cons {c : Char} (hc : p c = false) (cs ds : List Char) :
    dropEndWhile p (cs ++ c :: ds) = cs ++ c :: dropEndWhile p ds := by
  have hback : (cs ++ c :: ds).reverse = ds.reverse ++ c :: cs.reverse := by simp
  rw [dropEndWhile, hback, dropWhile_append_cons hc, dropEndWhile]
  simp

/-- A character that stays keeps the two ends apart. -/
theorem trimBy_append_cons {c : Char} (hc : p c = false) (cs ds : List Char) :
    trimBy p (cs ++ c :: ds) = cs.dropWhile p ++ c :: dropEndWhile p ds := by
  rw [trimBy, dropWhile_append_cons hc, dropEndWhile_append_cons hc]

theorem dropEndWhile_append {back : List Char} (hback : ∀ c ∈ back, p c = true) (cs : List Char) :
    dropEndWhile p (cs ++ back) = dropEndWhile p cs := by
  have hback' : ∀ c ∈ back.reverse, p c = true := by simpa using hback
  rw [dropEndWhile, dropEndWhile, List.reverse_append, List.dropWhile_append_of_pos hback']

/-- What is trimmed already comes back from between characters that go. -/
theorem IsTrimmed.trimBy_append (h : IsTrimmed p cs) {front back : List Char}
    (hfront : ∀ c ∈ front, p c = true) (hback : ∀ c ∈ back, p c = true) :
    trimBy p (front ++ cs ++ back) = cs := by
  rw [trimBy, List.append_assoc, List.dropWhile_append_of_pos hfront]
  cases cs with
  | nil => rw [List.nil_append, List.dropWhile_eq_nil_iff.mpr hback]; rfl
  | cons c cs =>
    have hstay : (c :: cs ++ back).dropWhile p = c :: cs ++ back := dropWhile_eq_self h.first
    rw [hstay, dropEndWhile_append hback, dropEndWhile_eq_self h.last]

/-! ## What goes -/

theorem exists_append_dropEndWhile (p : Char → Bool) (cs : List Char) :
    ∃ back, (∀ c ∈ back, p c = true) ∧ cs = dropEndWhile p cs ++ back := by
  refine ⟨(cs.reverse.takeWhile p).reverse, fun c hc => ?_, ?_⟩
  · exact List.mem_takeWhile_imp (List.mem_reverse.mp hc)
  · rw [dropEndWhile, ← List.reverse_append, List.takeWhile_append_dropWhile, List.reverse_reverse]

theorem exists_append_trimBy (p : Char → Bool) (cs : List Char) : ∃ front back,
    (∀ c ∈ front, p c = true) ∧ (∀ c ∈ back, p c = true) ∧ cs = front ++ trimBy p cs ++ back := by
  obtain ⟨back, hback, heq⟩ := exists_append_dropEndWhile p (cs.dropWhile p)
  refine ⟨cs.takeWhile p, back, fun c hc => List.mem_takeWhile_imp hc, hback, ?_⟩
  rw [trimBy, List.append_assoc, ← heq, List.takeWhile_append_dropWhile]

theorem trimBy_sublist (p : Char → Bool) (cs : List Char) : (trimBy p cs).Sublist cs := by
  obtain ⟨front, back, -, -, heq⟩ := exists_append_trimBy p cs
  have hmiddle : (trimBy p cs).Sublist (front ++ trimBy p cs ++ back) :=
    (List.sublist_append_right front _).trans (List.sublist_append_left _ back)
  rwa [← heq] at hmiddle

end ProjectComposer.Text
