import Mathlib.Data.Nat.Digits.Defs
import ProjectComposer.Proofs.Number.Digits
import ProjectComposer.Proofs.Text.Trimmed

/-!
Settings that are integers. The numerals of a setting have a grammar of their own: a sign or none,
and digits of any script with at most one underscore between neighbours, all with spaces around.
What a numeral denotes is the sum of its digits by their places, and reading a text gives this
integer exactly if the text is such a numeral and its digits are not too many. Of the integers read
only the positive ones replace a default.
-/
namespace ProjectComposer
set_option autoImplicit false

/-! ## Digits of every script -/

namespace Text
variable {c : Char}

theorem isDecimal_iff : isDecimal c = true ↔ ∃ v, decimalValue? c = some v :=
  Option.isSome_iff_exists

theorem isBlank_digit : ∀ z ∈ digitZeros, ∀ k < 10, isBlank (Char.ofNat (z + k)) = false := by
  decide

theorem not_isBlank_of_isDecimal (h : isDecimal c = true) : isBlank c = false := by
  obtain ⟨v, hv⟩ := isDecimal_iff.mp h
  obtain ⟨z, hz, -⟩ := Option.map_eq_some_iff.mp hv
  obtain ⟨hle, hge⟩ : z ≤ c.toNat ∧ c.toNat ≤ z + 9 := by simpa using List.find?_some hz
  have hdigit := isBlank_digit z (List.mem_of_find?_eq_some hz) (c.toNat - z) (by omega)
  rwa [Nat.add_sub_cancel' hle, Char.ofNat_toNat] at hdigit

theorem not_isSpace_of_isDecimal (h : isDecimal c = true) : isSpace c = false := by
  rw [Bool.eq_false_iff]
  intro hspace
  exact Bool.false_ne_true ((not_isBlank_of_isDecimal h).symm.trans (isBlank_of_isSpace hspace))

theorem decimalValue?_ascii : ∀ k < 10, decimalValue? (Char.ofNat (48 + k)) = some k := by
  decide

/-- The digits of ASCII have their value among the digits of every script. -/
theorem decimalValue?_of_isAsciiDigit (h : Numeral.isAsciiDigit c = true) :
    decimalValue? c = some (c.toNat - 48) := by
  obtain ⟨hzero, hnine⟩ := Numeral.isAsciiDigit_iff.mp h
  have hge : 48 ≤ c.toNat := hzero
  have hle : c.toNat ≤ 57 := hnine
  have hvalue := decimalValue?_ascii (c.toNat - 48) (by omega)
  rwa [Nat.add_sub_cancel' hge, Char.ofNat_toNat] at hvalue

end Text

namespace Numeral
open Text

/-! ## Numerals -/

/-- Decimal digits, at least one, with at most one underscore between neighbours. -/
inductive IsDigits : List Char → Prop
  | single {c : Char} : isDecimal c = true → IsDigits [c]
  | cons {c : Char} {cs : List Char} : isDecimal c = true → IsDigits cs → IsDigits (c :: cs)
  | apart {c : Char} {cs : List Char} : isDecimal c = true → IsDigits cs → IsDigits (c :: '_' :: cs)

/-- The number that the digits of a text denote in the decimal system, whatever stands between. -/
def denoted (cs : List Char) : ℕ :=
  Nat.ofDigits 10 (cs.filterMap decimalValue?).reverse

/-- A numeral of a setting: digits with a sign in front of them or none. -/
inductive Denotes : List Char → ℤ → Prop
  | unsigned {ds : List Char} : IsDigits ds → Denotes ds (denoted ds)
  | plus {ds : List Char} : IsDigits ds → Denotes ('+' :: ds) (denoted ds)
  | minus {ds : List Char} : IsDigits ds → Denotes ('-' :: ds) (-(denoted ds : ℤ))

/-- A text that holds a numeral and spaces around it. -/
def Says (s : String) (n : ℤ) : Prop :=
  ∃ front numeral back, s.toList = front ++ numeral ++ back ∧ (∀ c ∈ front, isSpace c = true) ∧
    (∀ c ∈ back, isSpace c = true) ∧ Denotes numeral n

/-- How many digits a text has, wherever they stand. -/
def digitCount (s : String) : ℕ :=
  s.toList.countP isDecimal

/-! ## Runs of digits -/

section Runs
variable {c : Char} {cs : List Char} {n : ℕ}

/-- What may follow a digit in a run of digits. -/
def Continues (cs : List Char) : Prop :=
  cs = [] ∨ IsDigits cs ∨ ∃ ds, cs = '_' :: ds ∧ IsDigits ds

theorem isDigits_cons : IsDigits (c :: cs) ↔ isDecimal c = true ∧ Continues cs := by
  constructor
  · intro h
    cases h with
    | single hc => exact ⟨hc, .inl rfl⟩
    | cons hc hcs => exact ⟨hc, .inr (.inl hcs)⟩
    | apart hc hcs => exact ⟨hc, .inr (.inr ⟨_, rfl, hcs⟩)⟩
  · rintro ⟨hc, rfl | hcs | ⟨ds, rfl, hds⟩⟩
    · exact .single hc
    · exact .cons hc hcs
    · exact .apart hc hds

theorem not_isDecimal_underscore : isDecimal '_' = false := by
  decide

theorem not_isDigits_underscore : ¬IsDigits ('_' :: cs) := by
  rw [isDigits_cons, not_isDecimal_underscore]
  exact fun h => Bool.false_ne_true h.1

theorem continues_underscore : Continues ('_' :: cs) ↔ IsDigits cs := by
  simp [Continues, not_isDigits_underscore]

theorem continues_cons (hc : c ≠ '_') : Continues (c :: cs) ↔ IsDigits (c :: cs) := by
  simp [Continues, hc]

theorem denoted_eq (cs : List Char) :
    denoted cs = (cs.filterMap decimalValue?).foldl (fun acc v => acc * 10 + v) 0 := by
  rw [denoted, Nat.ofDigits_eq_foldr, List.foldr_reverse]
  simp only [Nat.cast_id, Nat.mul_comm, Nat.add_comm]

theorem not_isDigits_nil : ¬IsDigits [] := by
  rintro ⟨⟩

/-- Reading a digit in front of more digits: it is there, and the rest is read with its value. -/
theorem bind_decimalValue?_eq_some_iff {f : ℕ → Option ℕ} (cs : List Char) (acc : ℕ)
    (hf : ∀ v, f v = some n ↔ Continues cs ∧
      (cs.filterMap decimalValue?).foldl (fun acc v => acc * 10 + v) (acc * 10 + v) = n) :
    (decimalValue? c).bind f = some n ↔ IsDigits (c :: cs) ∧
      ((c :: cs).filterMap decimalValue?).foldl (fun acc v => acc * 10 + v) acc = n := by
  rw [isDigits_cons]
  cases hc : decimalValue? c with
  | none => simp [isDecimal, hc]
  | some v =>
    have hdecimal : isDecimal c = true := isDecimal_iff.mpr ⟨v, hc⟩
    rw [Option.bind_some, hf, List.filterMap_cons_some hc, List.foldl_cons, and_iff_right hdecimal]

theorem digitsAfter_eq_some_iff {acc : ℕ} : digitsAfter decimalValue? acc cs = some n ↔
    Continues cs ∧ (cs.filterMap decimalValue?).foldl (fun acc v => acc * 10 + v) acc = n := by
  have hgap : decimalValue? '_' = none := by decide
  fun_induction digitsAfter decimalValue? acc cs with
  | case1 acc => simp [Continues]
  | case2 acc => simp [continues_underscore, not_isDigits_nil]
  | case3 acc d more ih =>
    rw [continues_underscore, List.filterMap_cons_none hgap]
    exact bind_decimalValue?_eq_some_iff more acc ih
  | case4 acc c rest hc ih =>
    rw [continues_cons hc]
    exact bind_decimalValue?_eq_some_iff rest acc ih

theorem digitRun?_eq_some_iff :
    digitRun? decimalValue? cs = some n ↔ IsDigits cs ∧ denoted cs = n := by
  cases cs with
  | nil => simp [digitRun?, not_isDigits_nil]
  | cons c rest =>
    rw [denoted_eq]
    refine bind_decimalValue?_eq_some_iff rest 0 fun v => ?_
    rw [Nat.zero_mul, Nat.zero_add]
    exact digitsAfter_eq_some_iff

/-- All that stands in a run besides its underscores is digits. -/
theorem IsDigits.length_filter (h : IsDigits cs) :
    (cs.filter (· ≠ '_')).length = cs.countP isDecimal := by
  have hne : ∀ c, isDecimal c = true → c ≠ '_' := by
    rintro c hc rfl
    exact Bool.false_ne_true (not_isDecimal_underscore.symm.trans hc)
  induction h with
  | single hc => simp [hc, hne _ hc]
  | cons hc _ ih => simpa [hc, hne _ hc] using ih
  | apart hc _ ih => simpa [hc, hne _ hc, not_isDecimal_underscore] using ih

theorem IsDigits.ne_nil (h : IsDigits cs) : cs ≠ [] := by
  rintro rfl
  exact not_isDigits_nil h

theorem IsDigits.isDecimal_getLast (h : IsDigits cs) : ∀ c ∈ cs.getLast?, isDecimal c = true := by
  induction h with
  | single hc => simpa using hc
  | cons hc hcs ih =>
    rwa [List.getLast?_cons_of_ne_nil hcs.ne_nil]
  | apart hc hcs ih =>
    rwa [List.getLast?_cons_of_ne_nil (List.cons_ne_nil _ _),
      List.getLast?_cons_of_ne_nil hcs.ne_nil]

theorem IsDigits.isTrimmed (h : IsDigits cs) : IsTrimmed isSpace cs where
  first c hc := by
    obtain ⟨rest, rfl⟩ := List.head?_eq_some_iff.mp hc
    exact not_isSpace_of_isDecimal (isDigits_cons.mp h).1
  last c hc := not_isSpace_of_isDecimal (h.isDecimal_getLast c hc)

end Runs

/-! ## Signs and spaces -/

section Signs
variable {cs : List Char} {n : ℤ} {s : String}

theorem IsDigits.signed_eq (h : IsDigits cs) : signed cs = (false, cs) := by
  unfold signed
  split
  · exact absurd (isDigits_cons.mp h).1 (by decide)
  · exact absurd (isDigits_cons.mp h).1 (by decide)
  · rfl

theorem denotes_iff : Denotes cs n ↔
    IsDigits (signed cs).2 ∧ withSign (signed cs).1 (denoted (signed cs).2) = n := by
  constructor
  · intro h
    cases h with
    | unsigned hds => rw [hds.signed_eq]; exact ⟨hds, rfl⟩
    | plus hds => exact ⟨hds, rfl⟩
    | minus hds => exact ⟨hds, rfl⟩
  · rintro ⟨hds, rfl⟩
    unfold signed at hds ⊢
    split at hds
    · exact .minus hds
    · exact .plus hds
    · exact .unsigned hds

theorem isTrimmed_cons {c : Char} (hc : isSpace c = false) (hne : cs ≠ [])
    (h : IsTrimmed isSpace cs) : IsTrimmed isSpace (c :: cs) where
  first d hd := by
    obtain rfl : c = d := Option.some.inj hd
    exact hc
  last d hd := by
    rw [List.getLast?_cons_of_ne_nil hne] at hd
    exact h.last d hd

theorem Denotes.isTrimmed (h : Denotes cs n) : IsTrimmed isSpace cs := by
  cases h with
  | unsigned hds => exact hds.isTrimmed
  | plus hds => exact isTrimmed_cons (by decide) hds.ne_nil hds.isTrimmed
  | minus hds => exact isTrimmed_cons (by decide) hds.ne_nil hds.isTrimmed

/-- A sign is no digit, so all digits of a numeral are those behind it. -/
theorem Denotes.countP_isDecimal (h : Denotes cs n) :
    ((signed cs).2.filter (· ≠ '_')).length = cs.countP isDecimal := by
  cases h with
  | unsigned hds => rw [hds.signed_eq, hds.length_filter]
  | plus hds => rw [List.countP_cons_of_neg (by decide)]; exact hds.length_filter
  | minus hds => rw [List.countP_cons_of_neg (by decide)]; exact hds.length_filter

theorem says_iff : Says s n ↔ Denotes (trimBy isSpace s.toList) n := by
  constructor
  · rintro ⟨front, numeral, back, hs, hfront, hback, hnumeral⟩
    rwa [hs, hnumeral.isTrimmed.trimBy_append hfront hback]
  · intro h
    obtain ⟨front, back, hfront, hback, hs⟩ := exists_append_trimBy isSpace s.toList
    exact ⟨front, _, back, hs, hfront, hback, h⟩

theorem countP_isDecimal_of_spaces (h : ∀ c ∈ cs, isSpace c = true) : cs.countP isDecimal = 0 := by
  rw [List.countP_eq_zero]
  intro c hc hdecimal
  exact Bool.false_ne_true ((not_isSpace_of_isDecimal hdecimal).symm.trans (h c hc))

theorem digitCount_eq (s : String) : digitCount s = (trimBy isSpace s.toList).countP isDecimal := by
  obtain ⟨front, back, hfront, hback, hs⟩ := exists_append_trimBy isSpace s.toList
  rw [digitCount]
  conv_lhs => rw [hs]
  rw [List.countP_append, List.countP_append, countP_isDecimal_of_spaces hfront,
    countP_isDecimal_of_spaces hback, Nat.zero_add, Nat.add_zero]

/-- The integers of settings are the numerals of not too many digits. -/
theorem integer?_eq_some_iff : integer? s = some n ↔ Says s n ∧ digitCount s ≤ mostDigits := by
  rw [says_iff, digitCount_eq]
  unfold integer?
  dsimp only
  split
  · next hlong =>
    refine iff_of_false (Option.some_ne_none n).symm ?_
    rintro ⟨hnumeral, hcount⟩
    rw [hnumeral.countP_isDecimal] at hlong
    omega
  · next hshort =>
    rw [Option.map_eq_some_iff]
    constructor
    · rintro ⟨m, hm, rfl⟩
      obtain ⟨hds, rfl⟩ := digitRun?_eq_some_iff.mp hm
      have hnumeral := denotes_iff.mpr ⟨hds, rfl⟩
      refine ⟨hnumeral, ?_⟩
      rw [← hnumeral.countP_isDecimal]
      exact not_lt.mp hshort
    · rintro ⟨hnumeral, -⟩
      obtain ⟨hds, hn⟩ := denotes_iff.mp hnumeral
      exact ⟨_, digitRun?_eq_some_iff.mpr ⟨hds, rfl⟩, hn⟩

end Signs

/-! ## Decimal forms -/

theorem isDigits_of_forall {cs : List Char} (hne : cs ≠ []) (h : ∀ c ∈ cs, isDecimal c = true) :
    IsDigits cs := by
  induction cs with
  | nil => exact absurd rfl hne
  | cons c cs ih =>
    obtain ⟨hc, hcs⟩ := List.forall_mem_cons.mp h
    cases cs with
    | nil => exact .single hc
    | cons d ds => exact .cons hc (ih (List.cons_ne_nil d ds) hcs)

theorem isDecimal_of_mem_toDigits {n : ℕ} {c : Char} (h : c ∈ Nat.toDigits 10 n) :
    isDecimal c = true :=
  isDecimal_iff.mpr ⟨_, decimalValue?_of_isAsciiDigit (isAsciiDigit_of_mem_toDigits h)⟩

theorem denoted_toDigits (n : ℕ) : denoted (Nat.toDigits 10 n) = n := by
  have hvalues : (Nat.toDigits 10 n).filterMap decimalValue? =
      (Nat.toDigits 10 n).map fun c => c.toNat - 48 := by
    rw [← List.filterMap_eq_map]
    apply List.filterMap_congr
    intro c hc
    exact decimalValue?_of_isAsciiDigit (isAsciiDigit_of_mem_toDigits hc)
  rw [denoted_eq, hvalues, List.foldl_map]
  exact digitsValue_toDigits n

theorem says_toString (n : ℕ) : Says (toString n) n := by
  have hds : IsDigits (Nat.toDigits 10 n) :=
    isDigits_of_forall Nat.toDigits_ne_nil fun c hc => isDecimal_of_mem_toDigits hc
  have hnumeral := Denotes.unsigned hds
  rw [denoted_toDigits] at hnumeral
  exact ⟨[], _, [], by simp, by simp, by simp, hnumeral⟩

theorem digitCount_toString (n : ℕ) : digitCount (toString n) = (toString n).length := by
  rw [digitCount, ← String.length_toList, List.countP_eq_length, Nat.toString_eq_repr,
    Nat.toList_repr]
  exact fun c hc => isDecimal_of_mem_toDigits hc

/-! ## Settings -/

section Settings
variable {default n : ℤ} {s : String}

theorem positiveOr_of_integer? (hn : 0 < n) (h : integer? s = some n) :
    positiveOr default (some s) = n := by
  rw [positiveOr, Option.bind_some, h]
  exact if_pos hn

theorem positiveOr_of_none (h : ∀ n, 0 < n → integer? s ≠ some n) :
    positiveOr default (some s) = default := by
  rw [positiveOr, Option.bind_some]
  cases hs : integer? s with
  | none => rfl
  | some m => exact if_neg fun hm => h m hm hs

theorem positiveOr_pos (hdefault : 0 < default) (setting : Option String) :
    0 < positiveOr default setting := by
  unfold positiveOr
  split
  · split
    · assumption
    · exact hdefault
  · exact hdefault

theorem positiveOr_eq_iff : positiveOr default (some s) = n ↔ (0 < n ∧ integer? s = some n) ∨
    ((∀ m, 0 < m → integer? s ≠ some m) ∧ n = default) := by
  constructor
  · rintro rfl
    by_cases h : ∃ m, 0 < m ∧ integer? s = some m
    · obtain ⟨m, hm, hs⟩ := h
      rw [positiveOr_of_integer? hm hs]
      exact .inl ⟨hm, hs⟩
    · have hnone : ∀ m, 0 < m → integer? s ≠ some m := fun m hm hs => h ⟨m, hm, hs⟩
      exact .inr ⟨hnone, positiveOr_of_none hnone⟩
  · rintro (⟨hn, hs⟩ | ⟨hnone, rfl⟩)
    · exact positiveOr_of_integer? hn hs
    · exact positiveOr_of_none hnone

/-- An optional setting gives the positive integer that its text says, and the default where it is
not set or its text says none. So it is positive where the default is, and the decimal form of a
positive integer gives this integer. -/
theorem positiveOr_settled (default : ℤ) :
    positiveOr default none = default ∧
    (∀ s n, digitCount s ≤ mostDigits →
      (positiveOr default (some s) = n ↔
        (0 < n ∧ Says s n) ∨ ((∀ m, 0 < m → ¬Says s m) ∧ n = default))) ∧
    (0 < default → ∀ setting, 0 < positiveOr default setting) ∧
    ∀ n : ℕ, 0 < n → (toString n).length ≤ mostDigits →
      positiveOr default (some (toString n)) = n := by
  refine ⟨rfl, ?_, positiveOr_pos, ?_⟩
  · intro s n hcount
    have hsays : ∀ m, integer? s = some m ↔ Says s m := fun m => by
      rw [integer?_eq_some_iff, and_iff_left hcount]
    simp only [positiveOr_eq_iff, ne_eq, hsays]
  · intro n hn hlen
    rw [← digitCount_toString] at hlen
    exact positiveOr_of_integer? (by omega) (integer?_eq_some_iff.mpr ⟨says_toString n, hlen⟩)

/-- Digits of two scripts, a sign, an underscore and spaces, and a decimal form. -/
theorem positiveOr_settled_scripts :
    let s := "\u2003+\u0661_2\n"
    digitCount s ≤ mostDigits ∧ 0 < (12 : ℤ) ∧ Says s 12 ∧ positiveOr 4 (some s) = 12 ∧
      0 < (4 : ℤ) ∧ 0 < positiveOr 4 (some "-7") ∧
      0 < 30 ∧ (toString 30).length ≤ mostDigits ∧ positiveOr 4 (some (toString 30)) = 30 := by
  intro s
  obtain ⟨-, hreads, hpositive, hforms⟩ := positiveOr_settled 4
  have hcount : digitCount s ≤ mostDigits := by decide
  have hdigits : IsDigits ['\u0661', '_', '2'] := .apart (by decide) (.single (by decide))
  have hdenoted : denoted ['\u0661', '_', '2'] = 12 := by decide
  have hnumeral := Denotes.plus hdigits
  rw [hdenoted] at hnumeral
  have hsays : Says s 12 :=
    ⟨['\u2003'], _, ['\n'], by decide, List.forall_mem_singleton.mpr (by decide),
      List.forall_mem_singleton.mpr (by decide), hnumeral⟩
  have hlen : (toString 30).length ≤ mostDigits := by decide
  exact ⟨hcount, by decide, hsays, (hreads s 12 hcount).mpr (.inl ⟨by decide, hsays⟩), by decide,
    hpositive (by decide) _, by decide, hlen, hforms 30 (by decide) hlen⟩

end Settings

end Numeral
end ProjectComposer
