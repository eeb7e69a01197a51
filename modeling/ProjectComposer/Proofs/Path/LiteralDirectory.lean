import Mathlib.Data.List.TakeWhile
import ProjectComposer.Proofs.Path.Pieces
import ProjectComposer.Proofs.Text.Segments

/-!
The literal directory of a pattern. A pattern begins with its literal directory and a slash, and no
wildcard stands in them. Since all of that is matched by itself alone, every path that matches the
pattern lies in the directory.
-/
namespace ProjectComposer.Path
set_option autoImplicit false

variable {cs text : List Char} {ts : List GlobToken} {pattern path : String}

/-! ## Characters that stand for themselves -/

theorem globTokens_append (h : ∀ c ∈ cs, c ≠ '*' ∧ c ≠ '?') (rest : List Char) :
    globTokens (cs ++ rest) = cs.map .literal ++ globTokens rest := by
  induction cs with
  | nil => rfl
  | cons c cs ih =>
    obtain ⟨⟨hstar, hmark⟩, hcs⟩ := List.forall_mem_cons.mp h
    rw [List.cons_append, globTokens_cons hstar hmark, ih hcs, List.map_cons, List.cons_append]

theorem composedOf_literals_append :
    ComposedOf (cs.map .literal ++ ts) text ↔ ∃ rest, ComposedOf ts rest ∧ text = cs ++ rest := by
  induction cs generalizing text with
  | nil => simp
  | cons c cs ih =>
    rw [List.map_cons, List.cons_append, composedOf_cons]
    constructor
    · rintro ⟨_, _, hpiece, hrest, rfl⟩
      obtain ⟨rest, hts, rfl⟩ := ih.mp hrest
      cases hpiece with
      | literal => exact ⟨rest, hts, rfl⟩
    · rintro ⟨rest, hts, rfl⟩
      exact ⟨[c], cs ++ rest, .literal c, ih.mpr ⟨rest, hts, rfl⟩, rfl⟩

/-! ## Directories of patterns -/

theorem literal_of_mem_literalDirectory {c : Char} (hc : c ∈ literalDirectory pattern) :
    c ≠ '*' ∧ c ≠ '?' := by
  rcases Text.mem_joinAt hc with rfl | ⟨segment, hsegment, hc⟩
  · decide
  · have htame := List.mem_takeWhile_imp hsegment
    simp only [isWild, Bool.not_eq_true', List.any_eq_false, Bool.or_eq_true, decide_eq_true_eq,
      not_or] at htame
    exact htame c hc

/-- The last segment never counts, so a slash and something behind it are left. -/
theorem exists_append_of_literalDirectory (h : literalDirectory pattern ≠ []) :
    ∃ rest, pattern.toList = literalDirectory pattern ++ '/' :: rest := by
  have hsegments := Text.splitAt_ne_nil '/' pattern.toList
  obtain ⟨more, hmore⟩ := List.takeWhile_prefix (l := (Text.splitAt '/' pattern.toList).dropLast)
    fun s => !isWild s
  have hcut := List.dropLast_append_getLast hsegments
  rw [← hmore, List.append_assoc] at hcut
  have hliteral :
      (Text.splitAt '/' pattern.toList).dropLast.takeWhile (fun s => !isWild s) ≠ [] := by
    intro hnil
    exact h (congrArg (Text.joinAt '/') hnil)
  have hjoined := congrArg (Text.joinAt '/') hcut
  rw [Text.joinAt_splitAt, Text.joinAt_append hliteral (by simp)] at hjoined
  exact ⟨_, hjoined.symm⟩

theorem exists_below_of_matchGlob (h : matchGlob path pattern = true)
    (hne : literalDirectory pattern ≠ []) :
    ∃ r, Text.forwardSlashes path.toList = literalDirectory pattern ++ '/' :: r := by
  obtain ⟨rest, hpattern⟩ := exists_append_of_literalDirectory hne
  have hliteral : ∀ c ∈ literalDirectory pattern ++ ['/'], c ≠ '*' ∧ c ≠ '?' := by
    intro c hc
    rcases List.mem_append.mp hc with hc | hc
    · exact literal_of_mem_literalDirectory hc
    · rw [List.mem_singleton.mp hc]
      decide
  obtain ⟨text, htext, hpath⟩ := matchGlob_iff.mp h
  rw [hpattern, List.append_cons, globTokens_append hliteral, composedOf_literals_append] at htext
  obtain ⟨r, -, rfl⟩ := htext
  rcases hpath with hpath | hpath
  · exact ⟨r, by rw [hpath, List.append_assoc, List.singleton_append]⟩
  · exact ⟨r ++ ['\n'], by simp [hpath]⟩

end ProjectComposer.Path
