import ProjectComposer.Proofs.Path.Descent

/-!
Paths that normalization leaves alone. A path loses characters on its way and gets none, so it comes
out unchanged only if nothing was there to be trimmed or removed. What comes out has names alone, but
it is looked at neither for blanks nor for a drive any more: both can come to stand in front, and
blanks at the end, once the segments of dots around them are gone.
-/
namespace ProjectComposer.Path
set_option autoImplicit false

variable {path q : String}

/-! ## What a path loses -/

theorem push_sublist (stack : List Segment) (s : Segment) :
    (push stack s).reverse.Sublist (stack.reverse ++ [s]) := by
  unfold push
  split
  · exact List.sublist_append_left _ _
  · split
    · next hup =>
      cases stack with
      | nil => simp [hup]
      | cons top rest =>
        dsimp only
        split
        · simp [hup]
        · rw [List.reverse_cons, List.append_assoc]
          exact List.sublist_append_left _ _
    · simp

theorem collapse_sublist (segments : List Segment) : (collapse segments).Sublist segments := by
  have hfold : ∀ stack : List Segment,
      (segments.foldl push stack).reverse.Sublist (stack.reverse ++ segments) := by
    induction segments with
    | nil => simp
    | cons s segments ih =>
      intro stack
      have hrest := (push_sublist stack s).append_right segments
      rw [List.append_assoc, List.singleton_append] at hrest
      exact (ih (push stack s)).trans hrest
  exact hfold []

/-- A normal form has characters of the cleaned path alone, in their order. -/
theorem normalize_sublist (h : normalize path = .ok q) : q.toList.Sublist (cleaned path) := by
  obtain ⟨-, -, s, rest, hcollapse, -, rfl⟩ := normalize_eq_ok.mp h
  rw [String.toList_ofList, ← hcollapse]
  conv_rhs => rw [← Text.joinAt_splitAt '/' (cleaned path)]
  exact Text.joinAt_sublist (collapse_sublist _)

theorem cleaned_eq_of_normalize_eq_self (h : normalize path = .ok path) :
    cleaned path = path.toList := by
  have hsub : (cleaned path).Sublist (Text.forwardSlashes path.toList) := Text.trimBy_sublist _ _
  have hlength : (Text.forwardSlashes path.toList).length = path.toList.length := List.length_map _
  refine ((normalize_sublist h).eq_of_length_le ?_).symm
  rw [← hlength]
  exact hsub.length_le

/-! ## Normal paths -/

theorem IsNormal.cleaned_eq_iff (h : IsNormal path) :
    cleaned path = path.toList ↔ Text.IsTrimmed Text.isBlank path.toList := by
  rw [cleaned, Text.forwardSlashes_of_not_mem h.backslash_not_mem, Text.trimBy_eq_self_iff]

theorem IsNormal.not_rooted (h : IsNormal path) : ¬['/'] <+: path.toList := by
  rintro ⟨rest, hrest⟩
  exact h.head_ne_slash (by rw [← hrest]; rfl)

theorem IsNormal.isRelative_iff (h : IsNormal path) :
    IsRelative path.toList ↔ ¬IsDrive path.toList := by
  refine ⟨fun hrelative => hrelative.not_isDrive, fun hdrive => ⟨?_, h.not_rooted, hdrive⟩⟩
  simpa using h.ne_empty

/-- Among normal paths those stay that have no blanks around and no drive in front. -/
theorem IsNormal.normalize_eq_self_iff (h : IsNormal path) : normalize path = .ok path ↔
    Text.IsTrimmed Text.isBlank path.toList ∧ ¬IsDrive path.toList := by
  rw [← h.cleaned_eq_iff, ← h.isRelative_iff]
  constructor
  · intro hself
    have hcleaned := cleaned_eq_of_normalize_eq_self hself
    exact ⟨hcleaned, hcleaned ▸ (normalize_eq_ok_iff_descend.mp hself).1⟩
  · rintro ⟨hcleaned, hrelative⟩
    have hnames : descend (names path) = some (names path) := by
      rw [descend_eq_some, names, collapse_of_names h.isName]
      exact ⟨rfl, fun hmem => (h.isName _ hmem).ne_dotDot rfl⟩
    rw [normalize_eq_ok_iff_descend, hcleaned]
    refine ⟨hrelative, names path, hnames, Text.splitAt_ne_nil '/' path.toList, ?_⟩
    rw [names, Text.joinAt_splitAt, String.ofList_toList]

/-! ## Normalizing twice -/

/-- A normal form is never rooted. It is its own normal form exactly if it has no blanks around and
no drive in front: with a drive it is refused, and with blanks it is at best taken to another
place. -/
theorem normalize_again (h : normalize path = .ok q) :
    ¬['/'] <+: q.toList ∧
    (normalize q = .ok q ↔ Text.IsTrimmed Text.isBlank q.toList ∧ ¬IsDrive q.toList) ∧
    (Text.IsTrimmed Text.isBlank q.toList → IsDrive q.toList →
      normalize q = .error (.absolute q)) ∧
    (¬Text.IsTrimmed Text.isBlank q.toList → ∀ r, normalize q = .ok r → r.length < q.length) := by
  have hq : IsNormal q := isNormal_of_normalize h
  refine ⟨hq.not_rooted, hq.normalize_eq_self_iff, fun htrimmed hdrive => ?_,
    fun htrimmed r hr => ?_⟩
  · rw [normalize_eq_absolute, hq.cleaned_eq_iff.mpr htrimmed, hq.isRelative_iff, not_not]
    exact hdrive
  · -- Blanks are trimmed off the path before anything else happens to it.
    have hne : cleaned q ≠ q.toList := fun heq => htrimmed (hq.cleaned_eq_iff.mp heq)
    have hsub : (cleaned q).Sublist q.toList := by
      rw [cleaned, Text.forwardSlashes_of_not_mem hq.backslash_not_mem]
      exact Text.trimBy_sublist _ _
    have hshorter : (cleaned q).length < q.toList.length :=
      lt_of_le_of_ne hsub.length_le fun heq => hne (hsub.eq_of_length heq)
    rw [← String.length_toList, ← String.length_toList]
    exact lt_of_le_of_lt (normalize_sublist hr).length_le hshorter

/-- Blanks and colons further inside stay. -/
theorem normalize_again_inside :
    normalize ".//docs/x/../C:/a b.md" = .ok "docs/C:/a b.md" ∧
      normalize "docs/C:/a b.md" = .ok "docs/C:/a b.md" := by
  have h : normalize ".//docs/x/../C:/a b.md" = .ok "docs/C:/a b.md" := by decide +kernel
  refine ⟨h, (normalize_again h).2.1.mpr ⟨⟨?_, ?_⟩, ?_⟩⟩
  · rintro c ⟨⟩
    decide
  · rintro c ⟨⟩
    decide
  · rintro ⟨c, -, hdrive⟩
    revert hdrive
    simp

/-- A drive comes to stand in front, and the normal form is refused as absolute. -/
theorem normalize_again_drive :
    normalize "./C:/x" = .ok "C:/x" ∧ normalize "C:/x" = .error (.absolute "C:/x") := by
  decide +kernel

end ProjectComposer.Path
