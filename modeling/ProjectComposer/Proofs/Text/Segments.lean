import Mathlib.Data.List.Basic
import ProjectComposer.Text.Blank
import ProjectComposer.Text.Segments

/-!
Cutting and joining undo each other: the pieces of a text hold all of its characters but the
separators, and pieces without separators are what their joined text is cut into. Trimming and
reading backslashes as slashes bring no characters in.
-/
namespace ProjectComposer.Text
set_option autoImplicit false

variable {sep : Char} {cs : List Char} {pieces : List (List Char)}

/-! ## Cutting and joining -/

theorem splitAt_eq_splitOn (sep : Char) (cs : List Char) : splitAt sep cs = cs.splitOn sep := by
  induction cs with
  | nil => rfl
  | cons c cs ih =>
    rw [splitAt, List.splitOn_cons_eq_if_modifyHead, ih]
    simp only [beq_iff_eq]
    split
    · rfl
    · cases hcs : cs.splitOn sep with
      | nil => exact absurd hcs (List.splitOn_ne_nil sep cs)
      | cons piece more => rfl

theorem joinAt_splitAt (sep : Char) (cs : List Char) : joinAt sep (splitAt sep cs) = cs := by
  rw [splitAt_eq_splitOn, joinAt, List.intercalate_splitOn]

theorem splitAt_joinAt (hne : pieces ≠ []) (h : ∀ p ∈ pieces, sep ∉ p) :
    splitAt sep (joinAt sep pieces) = pieces := by
  rw [splitAt_eq_splitOn, joinAt, List.splitOn_intercalate sep h hne]

theorem splitAt_cons_of_ne (cs : List Char) {c : Char} (h : c ≠ sep) : ∃ piece more,
    splitAt sep cs = piece :: more ∧ splitAt sep (c :: cs) = (c :: piece) :: more := by
  rw [splitAt, if_neg h]
  cases hcs : splitAt sep cs with
  | nil => exact absurd hcs (splitAt_ne_nil sep cs)
  | cons piece more => exact ⟨piece, more, rfl, rfl⟩

/-- The characters of a piece are characters of the text, and none of them is the separator. -/
theorem mem_of_mem_splitAt {piece : List Char} (h : piece ∈ splitAt sep cs) {c : Char}
    (hc : c ∈ piece) : c ∈ cs ∧ c ≠ sep := by
  induction cs generalizing piece with
  | nil =>
    obtain rfl := List.mem_singleton.mp h
    cases hc
  | cons d cs ih =>
    by_cases hd : d = sep
    · rw [splitAt, if_pos hd] at h
      rcases List.mem_cons.mp h with rfl | h
      · cases hc
      · exact (ih h hc).imp_left (List.mem_cons_of_mem d)
    · obtain ⟨first, more, hcut, hcut'⟩ := splitAt_cons_of_ne cs hd
      rw [hcut'] at h
      rw [hcut] at ih
      rcases List.mem_cons.mp h with rfl | h
      · rcases List.mem_cons.mp hc with rfl | hc
        · exact ⟨List.mem_cons_self, hd⟩
        · exact (ih List.mem_cons_self hc).imp_left (List.mem_cons_of_mem d)
      · exact (ih (List.mem_cons_of_mem _ h) hc).imp_left (List.mem_cons_of_mem d)

theorem not_mem_of_mem_splitAt {piece : List Char} (h : piece ∈ splitAt sep cs) : sep ∉ piece :=
  fun hc => (mem_of_mem_splitAt h hc).2 rfl

theorem mem_joinAt {c : Char} (h : c ∈ joinAt sep pieces) : c = sep ∨ ∃ p ∈ pieces, c ∈ p := by
  induction pieces with
  | nil => cases h
  | cons p pieces ih =>
    cases pieces with
    | nil => exact .inr ⟨p, List.mem_cons_self, by simpa [joinAt] using h⟩
    | cons q more =>
      rw [joinAt, List.intercalate_cons_cons, List.append_assoc, List.mem_append] at h
      rcases h with h | h
      · exact .inr ⟨p, List.mem_cons_self, h⟩
      · rcases List.mem_cons.mp h with rfl | h
        · exact .inl rfl
        · exact (ih h).imp_right fun ⟨r, hr, hc⟩ => ⟨r, List.mem_cons_of_mem p hr, hc⟩

theorem splitAt_append_cons (sep : Char) (cs ds : List Char) :
    splitAt sep (cs ++ sep :: ds) = splitAt sep cs ++ splitAt sep ds := by
  simp only [splitAt_eq_splitOn, List.splitOn_append_cons_self]

/-- What stands in front without a separator belongs to the first piece. -/
theorem splitAt_append_of_not_mem (h : sep ∉ cs) (ds : List Char) : ∃ piece more,
    splitAt sep ds = piece :: more ∧ splitAt sep (cs ++ ds) = (cs ++ piece) :: more := by
  induction cs with
  | nil =>
    obtain ⟨piece, more, hcut⟩ := List.exists_cons_of_ne_nil (splitAt_ne_nil sep ds)
    exact ⟨piece, more, hcut, hcut⟩
  | cons c cs ih =>
    obtain ⟨hc, hcs⟩ := not_or.mp (List.mem_cons.not.mp h)
    obtain ⟨piece, more, hcut, hrest⟩ := ih hcs
    obtain ⟨first, others, hfirst, hwhole⟩ := splitAt_cons_of_ne (cs ++ ds) (Ne.symm hc)
    obtain ⟨rfl, rfl⟩ := List.cons.inj (hrest.symm.trans hfirst)
    exact ⟨piece, more, hcut, hwhole⟩

theorem splitAt_eq_singleton {piece : List Char} (h : sep ∉ piece) :
    splitAt sep piece = [piece] := by
  have hcut := splitAt_joinAt (List.cons_ne_nil piece []) (by simpa using h)
  simpa [joinAt] using hcut

theorem joinAt_cons (piece : List Char) (hne : pieces ≠ []) :
    joinAt sep (piece :: pieces) = piece ++ sep :: joinAt sep pieces := by
  obtain ⟨first, more, rfl⟩ := List.exists_cons_of_ne_nil hne
  simp [joinAt, List.intercalate_cons_cons]

theorem joinAt_append {more : List (List Char)} (hne : pieces ≠ []) (hmore : more ≠ []) :
    joinAt sep (pieces ++ more) = joinAt sep pieces ++ sep :: joinAt sep more := by
  induction pieces with
  | nil => exact absurd rfl hne
  | cons first pieces ih =>
    cases pieces with
    | nil =>
      rw [List.singleton_append, joinAt_cons first hmore]
      simp [joinAt]
    | cons second rest =>
      rw [List.cons_append, joinAt_cons first (by simp), ih (List.cons_ne_nil second rest),
        joinAt_cons first (List.cons_ne_nil second rest), List.append_assoc, List.cons_append]

theorem joinAt_concat (hne : pieces ≠ []) (piece : List Char) :
    joinAt sep (pieces ++ [piece]) = joinAt sep pieces ++ sep :: piece := by
  rw [joinAt_append hne (List.cons_ne_nil piece [])]
  simp [joinAt]

/-- The last piece of a text is all of it, or what follows the last separator. -/
theorem getLast?_splitAt {piece : List Char} (h : sep ∉ piece) :
    (splitAt sep cs).getLast? = some piece ↔
      cs = piece ∨ ∃ above, cs = above ++ sep :: piece := by
  constructor
  · intro hlast
    obtain ⟨pieces, hpieces⟩ := List.getLast?_eq_some_iff.mp hlast
    have hcs := joinAt_splitAt sep cs
    rw [hpieces] at hcs
    cases pieces with
    | nil => exact .inl (by simpa [joinAt] using hcs.symm)
    | cons first more =>
      rw [joinAt_concat (List.cons_ne_nil first more)] at hcs
      exact .inr ⟨_, hcs.symm⟩
  · rintro (rfl | ⟨above, rfl⟩)
    · rw [splitAt_eq_singleton h]
      rfl
    · rw [splitAt_append_cons, splitAt_eq_singleton h, List.getLast?_concat]

/-- Fewer pieces are joined to a part of the text. -/
theorem joinAt_sublist {fewer : List (List Char)} (h : fewer.Sublist pieces) :
    (joinAt sep fewer).Sublist (joinAt sep pieces) := by
  induction h with
  | slnil => exact .refl _
  | @cons fewer pieces p hsub ih =>
    cases pieces with
    | nil =>
      rw [List.sublist_nil.mp hsub]
      exact List.nil_sublist _
    | cons q more =>
      rw [joinAt_cons p (List.cons_ne_nil q more)]
      exact (ih.cons sep).trans (List.sublist_append_right p _)
  | @cons_cons fewer pieces p hsub ih =>
    cases fewer with
    | nil =>
      cases pieces with
      | nil => exact .refl _
      | cons q more =>
        rw [joinAt_cons p (List.cons_ne_nil q more)]
        simp [joinAt]
    | cons q more =>
      have hne : pieces ≠ [] := fun hnil => by simp [hnil] at hsub
      rw [joinAt_cons p (List.cons_ne_nil q more), joinAt_cons p hne]
      exact (List.Sublist.refl p).append (ih.cons_cons sep)

/-- A text that ends with the separator has an empty piece. -/
theorem nil_mem_splitAt_concat (sep : Char) (cs : List Char) : [] ∈ splitAt sep (cs ++ [sep]) := by
  rw [splitAt_eq_splitOn, List.splitOn_append_cons_self, List.splitOn_nil]
  exact List.mem_append_right _ List.mem_cons_self

theorem mem_joinTexts {sep : String} {texts : List String} {c : Char}
    (h : c ∈ (joinTexts sep texts).toList) : c ∈ sep.toList ∨ ∃ s ∈ texts, c ∈ s.toList := by
  induction texts with
  | nil => cases h
  | cons s texts ih =>
    cases texts with
    | nil => exact .inr ⟨s, List.mem_cons_self, h⟩
    | cons next more =>
      rw [joinTexts, String.toList_append, String.toList_append, List.mem_append,
        List.mem_append] at h
      · rcases h with (hs | hsep) | hmore
        · exact .inr ⟨s, List.mem_cons_self, hs⟩
        · exact .inl hsep
        · exact (ih hmore).imp_right fun ⟨r, hr, hc⟩ => ⟨r, List.mem_cons_of_mem s hr, hc⟩
      · exact List.cons_ne_nil next more

/-! ## Trimming -/

theorem mem_of_mem_trimBy {p : Char → Bool} {c : Char} (h : c ∈ trimBy p cs) : c ∈ cs := by
  rw [trimBy, dropEndWhile, List.mem_reverse] at h
  have hstart := List.mem_reverse.mp (List.dropWhile_subset p h)
  exact List.dropWhile_subset p hstart

theorem backslash_not_mem_forwardSlashes (cs : List Char) : '\\' ∉ forwardSlashes cs := by
  intro h
  obtain ⟨c, -, hc⟩ := List.mem_map.mp h
  split at hc
  · cases hc
  · next hne => exact hne hc

theorem forwardSlashes_of_not_mem (h : '\\' ∉ cs) : forwardSlashes cs = cs := by
  unfold forwardSlashes
  conv_rhs => rw [← List.map_id cs]
  refine List.map_congr_left fun c hc => if_neg ?_
  rintro rfl
  exact h hc

end ProjectComposer.Text
