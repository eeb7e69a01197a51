import Mathlib.Data.List.Basic
import ProjectComposer.Path.Glob

/-!
Patterns without wildcards. Such a pattern matches itself and nothing else, up to one line feed at
the end of the path. So of two texts without wildcards each one is told from the other by at least
one of them as a pattern.
-/
namespace ProjectComposer.Path
set_option autoImplicit false

/-- A text that is no pattern for anything but itself. -/
def IsLiteral (text : String) : Prop :=
  ∀ c ∈ text.toList, c ≠ '*' ∧ c ≠ '?'

theorem globTokens_cons {c : Char} (hstar : c ≠ '*') (hmark : c ≠ '?') (cs : List Char) :
    globTokens (c :: cs) = .literal c :: globTokens cs := by
  rw [globTokens]
  · exact fun _ heq _ => hstar heq
  · exact fun _ heq _ => hstar heq
  · exact hstar
  · exact hmark

theorem globTokens_of_literal {cs : List Char} (h : ∀ c ∈ cs, c ≠ '*' ∧ c ≠ '?') :
    globTokens cs = cs.map .literal := by
  induction cs with
  | nil => rfl
  | cons c cs ih =>
    obtain ⟨⟨hstar, hmark⟩, hrest⟩ := List.forall_mem_cons.mp h
    rw [globTokens_cons hstar hmark, ih hrest, List.map_cons]

theorem matchTokens_map_literal (pattern text : List Char) :
    matchTokens (pattern.map .literal) text = true ↔
      text = pattern ∨ text = pattern ++ ['\n'] := by
  induction pattern generalizing text with
  | nil => simp [matchTokens]
  | cons d pattern ih =>
    rw [List.map_cons, matchTokens]
    cases text with
    | nil => simp [GlobToken.eat]
    | cons c text =>
      simp only [GlobToken.eat, Bool.and_eq_true, decide_eq_true_eq, ih, List.cons_append,
        List.cons.injEq]
      exact and_or_left

theorem matchGlob_of_isLiteral {path pattern : String} (h : IsLiteral pattern) :
    matchGlob path pattern = true ↔ Text.forwardSlashes path.toList = pattern.toList ∨
      Text.forwardSlashes path.toList = pattern.toList ++ ['\n'] := by
  rw [matchGlob, globTokens_of_literal h, matchTokens_map_literal]

end ProjectComposer.Path
