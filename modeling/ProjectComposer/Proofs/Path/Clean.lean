import ProjectComposer.Proofs.Path.Plain

/-!
Clean directories. Below a clean directory nothing changes the directory itself any more: the path of
a file in it is trimmed at its end alone, and dots are left at its end alone. So the last name of a
normal path decides where the file goes. It stays in the directory unless blanks at its end are all
that makes it a name.
-/
namespace ProjectComposer.Path
set_option autoImplicit false

/-- A normal path without blanks in front, and neither a drive nor below one. -/
structure IsClean (directory : String) : Prop where
  isNormal : IsNormal directory
  first : ∀ c, directory.toList.head? = some c → Text.isBlank c = false
  not_isDrive : ¬IsDrive (directory.toList ++ ['/'])

/-- The path ends with a blank. -/
def EndsBlank (path : String) : Prop :=
  ∃ c, path.toList.getLast? = some c ∧ Text.isBlank c = true

section Clean
variable {a b base r q : String}

/-! ## Clean directories -/

/-- What lies below a directory makes no drive of it. -/
theorem isDrive_append_slash {cs rest : List Char} :
    IsDrive (cs ++ '/' :: rest) ↔ IsDrive (cs ++ ['/']) := by
  unfold IsDrive
  refine exists_congr fun c => and_congr_right fun hc => ?_
  have hne : c ≠ '/' := by
    rintro rfl
    exact absurd hc (by decide)
  match cs with
  | [] => simp [List.cons_prefix_cons, hne]
  | [d] => simp [List.cons_prefix_cons]
  | d :: e :: [] => simp [List.cons_prefix_cons]
  | d :: e :: f :: more => simp [List.cons_prefix_cons]

theorem IsClean.append (ha : IsClean a) (hb : IsNormal b) : IsClean (a ++ "/" ++ b) := by
  refine ⟨ha.isNormal.append hb, fun c hc => ha.first c ?_, ?_⟩
  · rwa [toList_below, List.head?_append_of_ne_nil _ (by simpa using ha.isNormal.ne_empty)] at hc
  · rw [toList_below, List.append_assoc, List.cons_append, isDrive_append_slash]
    exact ha.not_isDrive

theorem isClean_join {parts : List String} (h : ∀ p ∈ parts, p = "" ∨ IsClean p) :
    join parts = "" ∨ IsClean (join parts) :=
  join_induction (fun _ hp => hp.isNormal) (fun _ _ ha hb => ha.append hb.isNormal) h

theorem IsPlain.isClean (h : IsPlain a) : IsClean a := by
  refine ⟨h.isNormal, h.isTrimmed.first, ?_⟩
  rintro ⟨c, -, hdrive⟩
  have hcolon : ':' ∈ a.toList ++ ['/'] := hdrive.subset (by simp)
  rcases List.mem_append.mp hcolon with hmem | hmem
  · exact (h.isPlainChar _ hmem).2.2 rfl
  · simp at hmem

/-! ## Paths in a clean directory -/

/-- In a clean directory a normal path stays as it is unless it ends with a blank. -/
theorem IsClean.normalize_eq_self_iff (hbase : IsClean base) (hr : IsNormal r) :
    normalize (base ++ "/" ++ r) = .ok (base ++ "/" ++ r) ↔ ¬EndsBlank r := by
  have hlast : (base ++ "/" ++ r).toList.getLast? = r.toList.getLast? := by
    have hne : r.toList ≠ [] := by simpa using hr.ne_empty
    rw [toList_below, List.getLast?_append_of_ne_nil _ (List.cons_ne_nil _ _),
      List.getLast?_cons_of_ne_nil hne]
  have hwhole := hbase.append hr
  have hdrive : ¬IsDrive (base ++ "/" ++ r).toList := by
    rw [toList_below, isDrive_append_slash]
    exact hbase.not_isDrive
  rw [hwhole.isNormal.normalize_eq_self_iff, and_iff_left hdrive]
  constructor
  · rintro htrimmed ⟨c, hc, hblank⟩
    rw [htrimmed.last c (hlast.trans hc)] at hblank
    cases hblank
  · intro hends
    refine ⟨hwhole.first, fun c hc => ?_⟩
    by_contra hblank
    exact hends ⟨c, hlast.symm.trans hc, by simpa using hblank⟩

/-- The last name of a path without the blanks at its end. -/
def trimmedName (path : String) : Segment :=
  Text.dropEndWhile Text.isBlank ((names path).getLast (names_ne_nil path))

/-- Where a path leads in a directory once the blanks at its end are gone: what is left of the last
name goes on from where the names above it lead. -/
def landing (directory path : String) : List Segment :=
  step (names directory ++ (names path).dropLast) (trimmedName path)

theorem slash_not_mem_above {s : Segment} (hs : s ∈ names a ++ (names b).dropLast) : '/' ∉ s := by
  rcases List.mem_append.mp hs with hs | hs
  · exact Text.not_mem_of_mem_splitAt hs
  · exact Text.not_mem_of_mem_splitAt (List.dropLast_subset _ hs)

theorem slash_not_mem_trimmedName (path : String) : '/' ∉ trimmedName path := by
  intro hmem
  obtain ⟨back, -, hback⟩ := Text.exists_append_dropEndWhile Text.isBlank
    ((names path).getLast (names_ne_nil path))
  refine Text.not_mem_of_mem_splitAt (List.getLast_mem (names_ne_nil path)) ?_
  rw [hback]
  exact List.mem_append_left back hmem

theorem toList_append_slash (a b : String) :
    (a ++ "/" ++ b).toList = Text.joinAt '/' (names a ++ (names b).dropLast) ++
      '/' :: (names b).getLast (names_ne_nil b) := by
  have hne : names a ++ (names b).dropLast ≠ [] := by simp [names_ne_nil]
  rw [← Text.joinAt_concat hne, List.append_assoc, List.dropLast_append_getLast, ← names_append,
    names, Text.joinAt_splitAt]

/-- Nothing is trimmed in front of a clean directory. -/
theorem IsClean.cleaned_append (hbase : IsClean base) (hr : IsNormal r) :
    cleaned (base ++ "/" ++ r) = Text.dropEndWhile Text.isBlank (base ++ "/" ++ r).toList := by
  have hwhole := hbase.append hr
  rw [cleaned, Text.forwardSlashes_of_not_mem hwhole.isNormal.backslash_not_mem, Text.trimBy,
    Text.dropWhile_eq_self hwhole.first]

theorem IsClean.isRelative_cleaned (hbase : IsClean base) (hr : IsNormal r) :
    IsRelative (cleaned (base ++ "/" ++ r)) := by
  have hne : base.toList ≠ [] := by simpa using hbase.isNormal.ne_empty
  rw [hbase.cleaned_append hr, toList_below, Text.dropEndWhile_append_cons (by decide)]
  refine ⟨by simp, fun hrooted => ?_, ?_⟩
  · exact hbase.isNormal.not_rooted (List.prefix_of_prefix_length_le hrooted
      (List.prefix_append _ _) (List.length_pos_iff.mpr hne))
  · rw [isDrive_append_slash]
    exact hbase.not_isDrive

/-- Down through names to one last segment. -/
theorem descend_concat {above : List Segment} (hne : above ≠ []) (h : ∀ s ∈ above, IsName s)
    (last : Segment) : descend (above ++ [last]) = some (step above last) := by
  have habove : above.foldlM descendOne [] = some above.reverse := by
    rw [foldlM_descendOne_eq_some List.not_mem_nil, List.mem_reverse, ← List.reverse_eq_iff]
    exact ⟨collapse_of_names h, fun hmem => (h _ hmem).ne_dotDot rfl⟩
  have hlast : descend (above ++ [last]) = (descendOne above.reverse last).map List.reverse := by
    rw [descend, List.foldlM_append, habove, Option.bind_eq_bind, Option.bind_some,
      List.foldlM_cons, Option.bind_eq_bind]
    simp
  rw [hlast]
  unfold descendOne step
  split
  · simp
  · split
    · -- There is a name above, so the last one of them goes.
      obtain ⟨top, rest, hrest⟩ := List.exists_cons_of_ne_nil (List.reverse_ne_nil_iff.mpr hne)
      have hdrop : above.dropLast = rest.reverse := by
        rw [← List.reverse_reverse above, hrest, List.reverse_cons, List.dropLast_concat]
      rw [hrest, hdrop]
      rfl
    · simp

/-- The outcome of normalizing a path in a clean directory is its landing, and only the root of the
project is refused. -/
theorem IsClean.normalize_append (hbase : IsClean base) (hr : IsNormal r) :
    (∀ q, normalize (base ++ "/" ++ r) = .ok q ↔
      landing base r ≠ [] ∧ q = String.ofList (Text.joinAt '/' (landing base r))) ∧
    (normalize (base ++ "/" ++ r) = .error (.outside (base ++ "/" ++ r)) ↔ landing base r = []) := by
  have hsub := List.dropLast_subset (names r)
  have hne : names base ++ (names r).dropLast ≠ [] := by simp [names_ne_nil]
  have habove : ∀ s ∈ names base ++ (names r).dropLast, IsName s :=
    List.forall_mem_append.mpr ⟨hbase.isNormal.isName, fun s hs => hr.isName s (hsub hs)⟩
  have hslash : ∀ s ∈ names base ++ (names r).dropLast, '/' ∉ s := fun s => slash_not_mem_above
  have hcut : Text.splitAt '/' (cleaned (base ++ "/" ++ r)) =
      names base ++ (names r).dropLast ++ [trimmedName r] := by
    rw [hbase.cleaned_append hr, toList_append_slash, Text.dropEndWhile_append_cons (by decide),
      Text.splitAt_append_cons, Text.splitAt_joinAt hne hslash, ← trimmedName,
      Text.splitAt_eq_singleton (slash_not_mem_trimmedName r)]
  have hdescend : descend (Text.splitAt '/' (cleaned (base ++ "/" ++ r))) =
      some (landing base r) := by
    rw [hcut, descend_concat hne habove, landing]
  have hrelative := hbase.isRelative_cleaned hr
  refine ⟨fun q => ?_, ?_⟩
  · rw [normalize_eq_ok_iff_descend, and_iff_right hrelative, hdescend]
    simp
  · rw [normalize_eq_outside, and_iff_right hrelative, hdescend]
    simp

/-- Wherever the last name leads, the first one of the directory is not left. -/
theorem head?_landing (h : landing a b ≠ []) : (landing a b).head? = (names a).head? := by
  have hstart : (names a ++ (names b).dropLast).head? = (names a).head? :=
    List.head?_append_of_ne_nil _ (names_ne_nil a)
  unfold landing step at h ⊢
  split at h
  · next hskip => rw [if_pos hskip, hstart]
  · next hskip =>
    rw [if_neg hskip]
    split at h
    · next hup =>
      have hlength := List.length_pos_iff.mpr h
      rw [List.length_dropLast] at hlength
      rw [if_pos hup, List.head?_dropLast, if_pos (by omega), hstart]
    · next hup =>
      rw [if_neg hup, List.head?_append_of_ne_nil _ (by simp [names_ne_nil]), hstart]

theorem slash_not_mem_landing {s : Segment} (hs : s ∈ landing a b) : '/' ∉ s := by
  unfold landing step at hs
  split at hs
  · exact slash_not_mem_above hs
  · split at hs
    · exact slash_not_mem_above (List.dropLast_subset _ hs)
    · rcases List.mem_append.mp hs with hs | hs
      · exact slash_not_mem_above hs
      · rw [List.mem_singleton.mp hs]
        exact slash_not_mem_trimmedName b

theorem IsClean.names_normalize_append (hbase : IsClean base) (hr : IsNormal r)
    (h : normalize (base ++ "/" ++ r) = .ok q) : names q = landing base r := by
  obtain ⟨hne, rfl⟩ := ((hbase.normalize_append hr).1 q).mp h
  rw [names, String.toList_ofList, Text.splitAt_joinAt hne fun s => slash_not_mem_landing]

end Clean
end ProjectComposer.Path
