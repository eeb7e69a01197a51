import ProjectComposer.Proofs.Path.Plain

/-!
Last names of paths. Whatever stands above it, a plain name at the end of a path is still there once
the path is normalized, and so it is where a normal path is joined to a directory.
-/
namespace ProjectComposer
set_option autoImplicit false

namespace Path

/-! ## Normalization -/

section Normalize
variable {path q : String} {s : Segment}

theorem collapse_concat {segments : List Segment} (hs : IsName s) :
    collapse (segments ++ [s]) = collapse segments ++ [s] := by
  rw [collapse, List.foldl_concat, push_of_isName hs, List.reverse_cons, collapse]

theorem names_normalize (h : normalize path = .ok q) :
    names q = collapse (Text.splitAt '/' (cleaned path)) := by
  obtain ⟨-, -, first, rest, hcollapse, hfirst, rfl⟩ := normalize_eq_ok.mp h
  rw [names, String.toList_ofList, hcollapse]
  refine Text.splitAt_joinAt (List.cons_ne_nil first rest) fun t ht => ?_
  exact Text.not_mem_of_mem_splitAt (isName_of_collapse hcollapse hfirst t ht).2

/-- A plain name at the end of a path is there once the path is cleaned. -/
theorem getLast?_cleaned (hs : IsPlainName s) (hlast : (names path).getLast? = some s) :
    (Text.splitAt '/' (cleaned path)).getLast? = some s := by
  have hslash : '/' ∉ s := Text.not_mem_of_mem_splitAt (List.mem_of_getLast? hlast)
  have hback : Text.forwardSlashes s = s :=
    Text.forwardSlashes_of_not_mem fun hmem => (hs.isPlainChar _ hmem).2.1 rfl
  have hblank : ∀ c ∈ s, Text.isBlank c = false := fun c hc => (hs.isPlainChar c hc).1
  rw [Text.getLast?_splitAt hslash]
  rcases (Text.getLast?_splitAt hslash).mp hlast with heq | ⟨above, heq⟩
  · left
    rw [cleaned, heq, hback]
    exact Text.trimBy_eq_self (fun c hc => hblank c (List.mem_of_head? hc))
      fun c hc => hblank c (List.mem_of_getLast? hc)
  · right
    have hchars : Text.forwardSlashes (above ++ '/' :: s) =
        Text.forwardSlashes above ++ '/' :: s := by
      conv_rhs => rw [← hback]
      simp [Text.forwardSlashes]
    rw [cleaned, heq, hchars, Text.trimBy_append_cons (by decide), Text.dropEndWhile_eq_self]
    · exact ⟨_, rfl⟩
    · exact fun c hc => hblank c (List.mem_of_getLast? hc)

theorem getLast?_normalize (h : normalize path = .ok q) (hs : IsPlainName s)
    (hlast : (names path).getLast? = some s) : (names q).getLast? = some s := by
  obtain ⟨above, habove⟩ := List.getLast?_eq_some_iff.mp (getLast?_cleaned hs hlast)
  rw [names_normalize h, habove, collapse_concat hs.isName, List.getLast?_concat]

end Normalize

/-! ## Joining -/

/-- A normal path comes last in what it is joined to. -/
theorem getLast?_join {base relative : String} (h : IsNormal relative) :
    (names (join [base, relative])).getLast? = (names relative).getLast? := by
  have hne : relative.toList ≠ [] := by simpa using h.ne_empty
  unfold names join
  rw [String.toList_ofList]
  cases hbase : trimSlashes base.toList with
  | nil => simp [hbase, h.trimSlashes_eq, hne, Text.joinAt]
  | cons c cs =>
    have hkept : List.filter (fun p => !p.isEmpty)
        (List.map (fun p => trimSlashes p.toList) [base, relative]) =
          [c :: cs, relative.toList] := by
      simp [hbase, h.trimSlashes_eq, hne]
    rw [hkept, Text.joinAt_cons (c :: cs) (List.cons_ne_nil relative.toList []),
      Text.splitAt_append_cons, List.getLast?_append_of_ne_nil _ (Text.splitAt_ne_nil '/' _)]
    simp [Text.joinAt]

/-! ## The name of a file -/

/-- The last name of a path as a text. -/
def lastName (path : String) : String :=
  String.ofList ((names path).getLast?.getD [])

theorem lastName_eq {path : String} {s : Segment} (h : (names path).getLast? = some s) :
    lastName path = String.ofList s := by
  rw [lastName, h]
  rfl

theorem lastName_append (directory path : String) :
    lastName (directory ++ "/" ++ path) = lastName path := by
  have hne : names path ≠ [] := Text.splitAt_ne_nil '/' path.toList
  rw [lastName, names_append, List.getLast?_append_of_ne_nil _ hne, lastName]

end Path
end ProjectComposer
