import ProjectComposer.Proofs.Path.Clean

/-!
Where a configured directory leads. The directory is any text; it stands in front of a slash and a
plain path, so its own blanks at the end count while those in front do not. Slashes at its end make
no difference, and with a slash in front it leads nowhere.
-/
namespace ProjectComposer.Path
set_option autoImplicit false

variable {directory path q r : String} {cs rest : List Char} {root : List Segment}

/-! ## Absolute paths -/

theorem isRelative_append_slash : IsRelative (cs ++ '/' :: rest) ↔ IsRelative (cs ++ ['/']) := by
  have hrooted : ['/'] <+: cs ++ '/' :: rest ↔ ['/'] <+: cs ++ ['/'] := by
    cases cs <;> simp [List.cons_prefix_cons]
  constructor
  · intro h
    exact ⟨by simp, mt hrooted.mpr h.not_rooted, mt isDrive_append_slash.mpr h.not_isDrive⟩
  · intro h
    exact ⟨by simp, mt hrooted.mp h.not_rooted, mt isDrive_append_slash.mp h.not_isDrive⟩

/-- A path with a slash in front is refused, whatever follows. -/
theorem normalize_of_rooted (h : ['/'] <+: path.toList) :
    normalize path = .error (.absolute path) := by
  obtain ⟨rest, hpath⟩ := h
  rw [normalize_eq_absolute, cleaned, ← hpath]
  intro hrelative
  refine hrelative.not_rooted ?_
  change ['/'] <+: Text.trimBy Text.isBlank ([] ++ '/' :: Text.forwardSlashes rest)
  rw [Text.trimBy_append_cons (by decide)]
  exact List.prefix_append ['/'] _

/-! ## Directories -/

/-- The part of a directory that counts: slashes alone, and no blanks in front. -/
def leading (directory : String) : List Char :=
  (Text.forwardSlashes directory.toList).dropWhile Text.isBlank

/-- The names that a directory stands for, whatever plain path is below it. -/
structure Leads (directory : String) (root : List Segment) : Prop where
  isRelative : IsRelative (leading directory ++ ['/'])
  descend_eq : descend (Text.splitAt '/' (leading directory)) = some root

theorem descend_append {above below : List Segment} (h : ∀ s ∈ below, IsName s) :
    descend (above ++ below) = (descend above).map (· ++ below) := by
  have hbelow : ∀ stack, below.foldlM descendOne stack = some (below.reverse ++ stack) := by
    induction below with
    | nil => exact fun _ => rfl
    | cons s below ih =>
      obtain ⟨hs, hrest⟩ := List.forall_mem_cons.mp h
      intro stack
      have hone : descendOne stack s = some (s :: stack) := by
        unfold descendOne
        rw [if_neg (not_or.mpr ⟨hs.ne_nil, hs.ne_dot⟩), if_neg hs.ne_dotDot]
      rw [List.foldlM_cons, hone, Option.bind_eq_bind, Option.bind_some, ih hrest]
      simp
  rw [descend, descend, List.foldlM_append]
  cases above.foldlM descendOne [] with
  | none => rfl
  | some stack => simp [hbelow]

theorem cleaned_below (hr : IsPlain r) :
    cleaned (directory ++ "/" ++ r) = leading directory ++ '/' :: r.toList := by
  have hslashes : Text.forwardSlashes (directory ++ "/" ++ r).toList =
      Text.forwardSlashes directory.toList ++ '/' :: r.toList := by
    have hself := Text.forwardSlashes_of_not_mem hr.isNormal.backslash_not_mem
    rw [toList_below, Text.forwardSlashes, List.map_append, List.map_cons, ← Text.forwardSlashes,
      ← Text.forwardSlashes, hself]
    rfl
  rw [cleaned, hslashes, Text.trimBy_append_cons (by decide),
    Text.dropEndWhile_eq_self hr.isTrimmed.last, leading]

/-- A plain path below a directory is accepted if and only if the directory leads anywhere, and it
goes below that. -/
theorem normalize_below_eq_ok (hr : IsPlain r) : normalize (directory ++ "/" ++ r) = .ok q ↔
    ∃ root, Leads directory root ∧ q = String.ofList (Text.joinAt '/' (root ++ names r)) := by
  rw [normalize_eq_ok_iff_descend, cleaned_below hr, isRelative_append_slash,
    Text.splitAt_append_cons, descend_append hr.isNormal.isName]
  simp only [Option.map_eq_some_iff]
  constructor
  · rintro ⟨hrelative, -, ⟨root, hroot, rfl⟩, -, rfl⟩
    exact ⟨root, ⟨hrelative, hroot⟩, rfl⟩
  · rintro ⟨root, hleads, rfl⟩
    refine ⟨hleads.isRelative, _, ⟨root, hleads.descend_eq, rfl⟩, ?_, rfl⟩
    exact List.append_ne_nil_of_right_ne_nil root (names_ne_nil r)

/-! ## Outer slashes -/

theorem leads_append_slash : Leads (directory ++ "/") root ↔ Leads directory root := by
  have hleading : leading (directory ++ "/") = leading directory ++ ['/'] := by
    rw [leading, String.toList_append, Text.forwardSlashes, List.map_append]
    exact Text.dropWhile_append_cons (by decide) _ []
  have hdescend : descend (Text.splitAt '/' (leading directory ++ ['/'])) =
      descend (Text.splitAt '/' (leading directory)) := by
    rw [Text.splitAt_append_cons, descend, descend, List.foldlM_append]
    cases (Text.splitAt '/' (leading directory)).foldlM descendOne [] with
    | none => rfl
    | some stack => rfl
  constructor
  · rintro ⟨hrelative, hroot⟩
    rw [hleading] at hrelative hroot
    rw [List.append_assoc, List.singleton_append, isRelative_append_slash] at hrelative
    exact ⟨hrelative, hdescend ▸ hroot⟩
  · rintro ⟨hrelative, hroot⟩
    refine ⟨?_, ?_⟩
    · rw [hleading, List.append_assoc, List.singleton_append]
      exact isRelative_append_slash.mpr hrelative
    · rw [hleading, hdescend, hroot]

theorem leads_append_slashes {back : List Char} (h : ∀ c ∈ back, c = '/') :
    Leads (directory ++ String.ofList back) root ↔ Leads directory root := by
  induction back generalizing directory with
  | nil => rw [String.ofList_nil, String.append_empty]
  | cons c back ih =>
    obtain ⟨rfl, hback⟩ := List.forall_mem_cons.mp h
    have hnext : directory ++ String.ofList ('/' :: back) =
        directory ++ "/" ++ String.ofList back := by
      apply String.toList_injective
      simp
    rw [hnext, ih hback, leads_append_slash]

/-- The names that a directory stands for when it is joined with others, which leaves out its outer
slashes. With nothing else in it the directory is the root of the project. -/
def Opens (directory : String) (root : List Segment) : Prop :=
  if trimSlashes directory.toList = [] then root = []
  else Leads (String.ofList (trimSlashes directory.toList)) root

/-- A plain path that is joined with a directory is accepted if and only if the directory opens
anything, and it goes below that. -/
theorem normalize_join_eq_ok {parts : List String} (h : IsPlain (join parts)) :
    normalize (join (directory :: parts)) = .ok q ↔
      ∃ root, Opens directory root ∧
        q = String.ofList (Text.joinAt '/' (root ++ names (join parts))) := by
  unfold Opens
  by_cases hslashes : trimSlashes directory.toList = []
  · rw [join_cons_of_slashes hslashes, h.normalize_eq, Except.ok.injEq]
    simp only [if_pos hslashes, exists_eq_left, List.nil_append, names, Text.joinAt_splitAt,
      String.ofList_toList]
    exact eq_comm
  · rw [join_cons_of_ne_nil hslashes, if_neg h.isNormal.ne_empty, normalize_below_eq_ok h]
    simp only [if_neg hslashes]

/-- Without a slash in front a directory opens what it leads to. -/
theorem opens_iff_leads (hne : directory ≠ "") (h : ¬['/'] <+: directory.toList) :
    Opens directory root ↔ Leads directory root := by
  obtain ⟨front, back, hfront, hback, hparts⟩ :=
    Text.exists_append_trimBy (· = '/') directory.toList
  rw [← trimSlashes] at hparts
  have hfront : front = [] := by
    rcases front with - | ⟨c, front⟩
    · rfl
    · obtain rfl : c = '/' := by simpa using hfront c List.mem_cons_self
      refine absurd ?_ h
      rw [hparts, List.append_assoc, List.cons_append]
      exact List.prefix_append ['/'] _
  subst hfront
  have hslashes : ∀ c ∈ back, c = '/' := fun c hc => by simpa using hback c hc
  have hdirectory :
      directory = String.ofList (trimSlashes directory.toList) ++ String.ofList back := by
    apply String.toList_injective
    simpa using hparts
  have hsome : trimSlashes directory.toList ≠ [] := by
    intro hnone
    rw [hnone, List.nil_append] at hparts
    cases back with
    | nil => exact hne (String.toList_injective hparts)
    | cons c back =>
      obtain rfl := hslashes c List.mem_cons_self
      exact h (hparts ▸ List.prefix_append ['/'] back)
  unfold Opens
  rw [if_neg hsome]
  conv_rhs => rw [hdirectory]
  exact (leads_append_slashes hslashes).symm

end ProjectComposer.Path
