import Mathlib.Data.List.Basic
import Mathlib.Data.List.Forall2
import ProjectComposer.Proofs.Path.Glob

/-!
What patterns match. A pattern is cut into tokens in exactly one way when wildcards are taken as
long as they go. A path matches a pattern if and only if the path, its backslashes read as slashes
and one line feed at its end perhaps left off, is a sequence of pieces, one for each token in order.
-/
namespace ProjectComposer.Path
set_option autoImplicit false

variable {cs text : List Char} {t : GlobToken} {ts : List GlobToken}

/-! ## Tokens of a pattern -/

/-- The pattern is cut into these tokens from the left: at each place `**/` is taken where it
stands, else `**`, else `*`, else `?`, else one character. -/
inductive CutInto : List Char → List GlobToken → Prop
  | nil : CutInto [] []
  | directories {cs : List Char} {ts : List GlobToken} (h : CutInto cs ts) :
      CutInto ('*' :: '*' :: '/' :: cs) (.directories :: ts)
  | anything {cs : List Char} {ts : List GlobToken} (hslash : cs.head? ≠ some '/')
      (h : CutInto cs ts) : CutInto ('*' :: '*' :: cs) (.anything :: ts)
  | within {cs : List Char} {ts : List GlobToken} (hstar : cs.head? ≠ some '*')
      (h : CutInto cs ts) : CutInto ('*' :: cs) (.within :: ts)
  | one {cs : List Char} {ts : List GlobToken} (h : CutInto cs ts) :
      CutInto ('?' :: cs) (.one :: ts)
  | literal {c : Char} {cs : List Char} {ts : List GlobToken} (hstar : c ≠ '*') (hmark : c ≠ '?')
      (h : CutInto cs ts) : CutInto (c :: cs) (.literal c :: ts)

theorem cutInto_globTokens (cs : List Char) : CutInto cs (globTokens cs) := by
  fun_induction globTokens cs with
  | case1 cs ih => exact .directories ih
  | case2 cs hslash ih =>
    refine .anything ?_ ih
    intro hhead
    obtain ⟨rest, rfl⟩ := List.head?_eq_some_iff.mp hhead
    exact hslash rest rfl
  | case3 cs _ hstar ih =>
    refine .within ?_ ih
    intro hhead
    obtain ⟨rest, rfl⟩ := List.head?_eq_some_iff.mp hhead
    exact hstar rest rfl
  | case4 cs ih => exact .one ih
  | case5 c cs _ _ hstar hmark ih => exact .literal hstar hmark ih
  | case6 => exact .nil

theorem globTokens_of_cutInto (h : CutInto cs ts) : globTokens cs = ts := by
  induction h with
  | nil => rfl
  | directories h ih => rw [globTokens, ih]
  | anything hslash h ih =>
    rw [globTokens, ih]
    rintro rest rfl
    exact hslash rfl
  | within hstar h ih =>
    rw [globTokens, ih]
    · rintro rest rfl
      exact hstar rfl
    · rintro rest rfl
      exact hstar rfl
  | one h ih => rw [globTokens, ih]
  | literal hstar hmark h ih => rw [globTokens_cons hstar hmark, ih]

theorem cutInto_iff : CutInto cs ts ↔ ts = globTokens cs :=
  ⟨fun h => (globTokens_of_cutInto h).symm, fun h => h ▸ cutInto_globTokens cs⟩

/-! ## Pieces of a text -/

/-- What a token stands for. -/
inductive Piece : GlobToken → List Char → Prop
  | nothing : Piece .directories []
  | directories {cs : List Char} (h : '\n' ∉ cs) : Piece .directories (cs ++ ['/'])
  | anything {cs : List Char} (h : '\n' ∉ cs) : Piece .anything cs
  | within {cs : List Char} (h : '/' ∉ cs) : Piece .within cs
  | one {c : Char} (h : c ≠ '/') : Piece .one [c]
  | literal (c : Char) : Piece (.literal c) [c]

theorem piece_anything : Piece .anything text ↔ '\n' ∉ text :=
  ⟨fun | .anything h => h, .anything⟩

theorem piece_within : Piece .within text ↔ '/' ∉ text :=
  ⟨fun | .within h => h, .within⟩

theorem piece_one : Piece .one text ↔ ∃ c, c ≠ '/' ∧ text = [c] :=
  ⟨fun | .one h => ⟨_, h, rfl⟩, fun ⟨_, h, htext⟩ => htext ▸ .one h⟩

theorem piece_literal {c : Char} : Piece (.literal c) text ↔ text = [c] :=
  ⟨fun | .literal _ => rfl, fun htext => htext ▸ .literal c⟩

/-- The text is a sequence of pieces, one for each token in order. -/
def ComposedOf (ts : List GlobToken) (text : List Char) : Prop :=
  ∃ pieces, List.Forall₂ Piece ts pieces ∧ text = pieces.flatten

theorem composedOf_nil : ComposedOf [] text ↔ text = [] := by
  simp [ComposedOf]

theorem composedOf_cons : ComposedOf (t :: ts) text ↔
    ∃ piece rest, Piece t piece ∧ ComposedOf ts rest ∧ text = piece ++ rest := by
  constructor
  · rintro ⟨_, hpieces, rfl⟩
    obtain ⟨piece, pieces, hpiece, hrest, rfl⟩ := List.forall₂_cons_left_iff.mp hpieces
    exact ⟨piece, pieces.flatten, hpiece, ⟨pieces, hrest, rfl⟩, List.flatten_cons⟩
  · rintro ⟨piece, _, hpiece, ⟨pieces, hrest, rfl⟩, rfl⟩
    exact ⟨piece :: pieces, .cons hpiece hrest, List.flatten_cons.symm⟩

/-! ## Matching -/

section Eating
variable {p : Char → Bool} {next : List Char → Bool}

theorem spanning_iff : spanning p next cs = true ↔
    ∃ piece rest, (∀ c ∈ piece, p c = true) ∧ cs = piece ++ rest ∧ next rest = true := by
  induction cs with
  | nil => simp [spanning]
  | cons c cs ih =>
    rw [spanning, Bool.or_eq_true, Bool.and_eq_true, ih]
    constructor
    · rintro (hnext | ⟨hc, piece, rest, hpiece, rfl, hnext⟩)
      · exact ⟨[], c :: cs, by simp, rfl, hnext⟩
      · exact ⟨c :: piece, rest, List.forall_mem_cons.mpr ⟨hc, hpiece⟩, rfl, hnext⟩
    · rintro ⟨piece, rest, hpiece, heq, hnext⟩
      cases piece with
      | nil => exact .inl (heq ▸ hnext)
      | cons d piece =>
        obtain ⟨rfl, rfl⟩ := List.cons.inj heq
        obtain ⟨hc, hpiece⟩ := List.forall_mem_cons.mp hpiece
        exact .inr ⟨hc, piece, rest, hpiece, rfl, hnext⟩

theorem pastSlash_iff : pastSlash p next cs = true ↔
    ∃ piece rest, (∀ c ∈ piece, p c = true) ∧ cs = piece ++ '/' :: rest ∧ next rest = true := by
  induction cs with
  | nil => simp [pastSlash]
  | cons c cs ih =>
    rw [pastSlash, Bool.or_eq_true, Bool.and_eq_true, Bool.and_eq_true, decide_eq_true_eq, ih]
    constructor
    · rintro (⟨rfl, hnext⟩ | ⟨hc, piece, rest, hpiece, rfl, hnext⟩)
      · exact ⟨[], cs, by simp, rfl, hnext⟩
      · exact ⟨c :: piece, rest, List.forall_mem_cons.mpr ⟨hc, hpiece⟩, rfl, hnext⟩
    · rintro ⟨piece, rest, hpiece, heq, hnext⟩
      cases piece with
      | nil =>
        obtain ⟨rfl, rfl⟩ := List.cons.inj heq
        exact .inl ⟨rfl, hnext⟩
      | cons d piece =>
        obtain ⟨rfl, rfl⟩ := List.cons.inj heq
        obtain ⟨hc, hpiece⟩ := List.forall_mem_cons.mp hpiece
        exact .inr ⟨hc, piece, rest, hpiece, rfl, hnext⟩

theorem forall_ne_iff {d : Char} : (∀ c ∈ cs, decide (c ≠ d) = true) ↔ d ∉ cs := by
  simp only [decide_eq_true_eq]
  exact ⟨fun h hd => h d hd rfl, fun h c hc hcd => h (hcd ▸ hc)⟩

/-- A token takes a piece of its own off the text and leaves the rest to what follows. -/
theorem eat_iff : t.eat next cs = true ↔
    ∃ piece rest, Piece t piece ∧ cs = piece ++ rest ∧ next rest = true := by
  cases t with
  | directories =>
    rw [GlobToken.eat, Bool.or_eq_true, pastSlash_iff]
    simp only [forall_ne_iff]
    constructor
    · rintro (hnext | ⟨piece, rest, hpiece, rfl, hnext⟩)
      · exact ⟨[], cs, .nothing, rfl, hnext⟩
      · exact ⟨piece ++ ['/'], rest, .directories hpiece, List.append_cons _ _ _, hnext⟩
    · rintro ⟨_, rest, hpiece, rfl, hnext⟩
      cases hpiece with
      | nothing => exact .inl hnext
      | directories h => exact .inr ⟨_, rest, h, (List.append_cons _ _ _).symm, hnext⟩
  | anything =>
    rw [GlobToken.eat, spanning_iff]
    simp only [forall_ne_iff, piece_anything]
  | within =>
    rw [GlobToken.eat, spanning_iff]
    simp only [forall_ne_iff, piece_within]
  | one =>
    simp only [piece_one]
    cases cs with
    | nil => simp [GlobToken.eat]
    | cons c cs =>
      rw [GlobToken.eat, Bool.and_eq_true, decide_eq_true_eq]
      constructor
      · rintro ⟨hc, hnext⟩
        exact ⟨[c], cs, ⟨c, hc, rfl⟩, rfl, hnext⟩
      · rintro ⟨_, rest, ⟨d, hd, rfl⟩, heq, hnext⟩
        obtain ⟨rfl, rfl⟩ := List.cons.inj heq
        exact ⟨hd, hnext⟩
  | literal d =>
    simp only [piece_literal]
    cases cs with
    | nil => simp [GlobToken.eat]
    | cons c cs =>
      rw [GlobToken.eat, Bool.and_eq_true, decide_eq_true_eq]
      constructor
      · rintro ⟨rfl, hnext⟩
        exact ⟨[c], cs, rfl, rfl, hnext⟩
      · rintro ⟨_, rest, rfl, heq, hnext⟩
        obtain ⟨rfl, rfl⟩ := List.cons.inj heq
        exact ⟨rfl, hnext⟩

end Eating

/-- One line feed may be left over at the end. -/
theorem matchTokens_iff : matchTokens ts cs = true ↔
    ∃ text, ComposedOf ts text ∧ (cs = text ∨ cs = text ++ ['\n']) := by
  induction ts generalizing cs with
  | nil => simp [matchTokens, composedOf_nil]
  | cons t ts ih =>
    rw [matchTokens, eat_iff]
    simp only [ih]
    constructor
    · rintro ⟨piece, rest, hpiece, rfl, text, htext, hrest⟩
      refine ⟨piece ++ text, composedOf_cons.mpr ⟨piece, text, hpiece, htext, rfl⟩, ?_⟩
      rw [List.append_assoc, List.append_cancel_left_eq, List.append_cancel_left_eq]
      exact hrest
    · rintro ⟨_, hcomposed, hcs⟩
      obtain ⟨piece, text, hpiece, htext, rfl⟩ := composedOf_cons.mp hcomposed
      rw [List.append_assoc] at hcs
      rcases hcs with rfl | rfl
      · exact ⟨piece, text, hpiece, rfl, text, htext, .inl rfl⟩
      · exact ⟨piece, text ++ ['\n'], hpiece, rfl, text, htext, .inr rfl⟩

theorem matchGlob_iff {path pattern : String} : matchGlob path pattern = true ↔
    ∃ text, ComposedOf (globTokens pattern.toList) text ∧
      (Text.forwardSlashes path.toList = text ∨
        Text.forwardSlashes path.toList = text ++ ['\n']) := by
  rw [matchGlob, matchTokens_iff]

/-- Every pattern is cut into tokens in one way, and the paths that match it are those that these
tokens compose, up to the direction of slashes and one line feed at the end. -/
theorem matchGlob_composed (pattern : String) : ∃ ts,
    (∀ ts', CutInto pattern.toList ts' ↔ ts' = ts) ∧
    ∀ path : String, matchGlob path pattern = true ↔
      ∃ text, ComposedOf ts text ∧ (Text.forwardSlashes path.toList = text ∨
        Text.forwardSlashes path.toList = text ++ ['\n']) :=
  ⟨globTokens pattern.toList, fun _ => cutInto_iff, fun _ => matchGlob_iff⟩

/-- Three stars are a wildcard for any text and one within a segment. -/
example : globTokens "a***/b".toList =
    [.literal 'a', .anything, .within, .literal '/', .literal 'b'] := by
  decide

end ProjectComposer.Path
