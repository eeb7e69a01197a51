import Mathlib.Algebra.Group.Nat.Defs
import Mathlib.Data.List.TakeWhile
import ProjectComposer.Number.Numeral

/-!
The decimal digits of a number: digits of ASCII, none of them a zero in front of others, and the
number is their value. A run of digits that is not too long has a value that can be written, so
whatever integer the numeral of a config gives can be.
-/
namespace ProjectComposer.Numeral
set_option autoImplicit false

variable {n : Nat} {c : Char} {rest : List Char}

theorem isAsciiDigit_iff : isAsciiDigit c = true ↔ '0' ≤ c ∧ c ≤ '9' := by
  rw [isAsciiDigit, Text.asciiDigit?]
  split
  · next h => simp [h]
  · next h => simp [h]

theorem isAsciiDigit_of_mem_toDigits (h : c ∈ Nat.toDigits 10 n) : isAsciiDigit c = true := by
  have hdigit := Nat.isDigit_of_mem_toDigits (by decide) (by decide) h
  rw [Char.isDigit, Bool.and_eq_true, decide_eq_true_eq, decide_eq_true_eq] at hdigit
  exact isAsciiDigit_iff.mpr hdigit

theorem head?_toDigits_ne_zero (h : n ≠ 0) : (Nat.toDigits 10 n).head? ≠ some '0' := by
  induction n using Nat.strongRecOn with
  | ind n ih =>
    rw [Nat.toDigits_eq_if (by decide)]
    split
    · next hlt =>
      rw [List.head?_cons, ne_eq, Option.some.injEq, Nat.digitChar_eq_zero]
      exact h
    · next hge =>
      have hfirst := ih (n / 10) (by omega) (by omega)
      obtain ⟨c, digits, hcons⟩ := List.exists_cons_of_ne_nil (Nat.toDigits_ne_nil (n := n / 10))
      rw [hcons] at hfirst ⊢
      exact hfirst

theorem digitsValue_toDigits (n : Nat) : digitsValue (Nat.toDigits 10 n) = n := by
  have hvalue (digits : List Char) : digitsValue digits = Nat.ofDigitChars 10 digits 0 := by
    rw [digitsValue, Nat.ofDigitChars]
    simp only [Nat.mul_comm]
    rfl
  rw [hvalue, Nat.ofDigitChars_ten_toDigits]

/-- Digits in front of a text that goes on with something else are parted from it. -/
theorem takeWhile_dropWhile_toDigits (h : ∀ c ∈ rest.head?, isAsciiDigit c = false) :
    (Nat.toDigits 10 n ++ rest).takeWhile isAsciiDigit = Nat.toDigits 10 n ∧
      (Nat.toDigits 10 n ++ rest).dropWhile isAsciiDigit = rest := by
  have hdigits : ∀ c ∈ Nat.toDigits 10 n, isAsciiDigit c = true :=
    fun c hc => isAsciiDigit_of_mem_toDigits hc
  rw [List.takeWhile_append_of_pos hdigits, List.dropWhile_append_of_pos hdigits]
  cases rest with
  | nil => simp
  | cons c rest =>
    have hc : isAsciiDigit c = false := h c rfl
    simp [hc]

/-! ## Lengths -/

section Lengths
variable {cs : List Char} {i : Int} {negative : Bool}

theorem isWritable_iff : isWritable i = true ↔ i.natAbs < 10 ^ mostDigits := by
  unfold isWritable
  generalize mostDigits = digits
  exact decide_eq_true_iff

theorem isWritable_withSign : isWritable (withSign negative n) = isWritable n := by
  cases negative with
  | false => rfl
  | true =>
    rw [Bool.eq_iff_iff, isWritable_iff, isWritable_iff, withSign, if_pos rfl, Int.natAbs_neg]

theorem isWritable_zero : isWritable 0 = true :=
  isWritable_iff.mpr (Nat.pow_pos (by decide))

theorem digit_lt (h : isAsciiDigit c = true) : c.toNat - 48 < 10 := by
  have hle : c.toNat ≤ 57 := (isAsciiDigit_iff.mp h).2
  omega

/-- Each digit after a value makes room for ten values more. -/
theorem foldl_digits_lt (h : ∀ c ∈ cs, isAsciiDigit c = true) (acc : Nat) :
    cs.foldl (fun n c => n * 10 + (c.toNat - 48)) acc < (acc + 1) * 10 ^ cs.length := by
  induction cs generalizing acc with
  | nil => simp
  | cons c cs ih =>
    rw [List.forall_mem_cons] at h
    have hdigit := digit_lt h.1
    rw [List.foldl_cons, List.length_cons, Nat.pow_succ']
    calc cs.foldl _ (acc * 10 + (c.toNat - 48))
        < (acc * 10 + (c.toNat - 48) + 1) * 10 ^ cs.length := ih h.2 _
      _ ≤ ((acc + 1) * 10) * 10 ^ cs.length := Nat.mul_le_mul_right _ (by omega)
      _ = (acc + 1) * (10 * 10 ^ cs.length) := Nat.mul_assoc _ _ _

theorem isWritable_digitsValue (h : ∀ c ∈ cs, isAsciiDigit c = true)
    (hfirst : cs.head? ≠ some '0') (hlong : isOverlong cs = false) :
    isWritable (digitsValue cs) = true := by
  have hlength : cs.length ≤ mostDigits := by
    simpa [isOverlong, hfirst] using hlong
  have hvalue : digitsValue cs < (0 + 1) * 10 ^ cs.length := foldl_digits_lt h 0
  rw [isWritable_iff, Int.natAbs_natCast]
  calc digitsValue cs < 10 ^ cs.length := by simpa using hvalue
    _ ≤ 10 ^ mostDigits := Nat.pow_le_pow_right (by decide) hlength

/-! ## Integers of configs -/

theorem digitsAfter_cons {value? : Char → Option Nat} {acc : Nat} (h : c ≠ '_') :
    digitsAfter value? acc (c :: cs) =
      (value? c).bind fun v => digitsAfter value? (acc * 10 + v) cs := by
  rw [digitsAfter.eq_def]
  simp [h]

theorem digitsAfter_asciiDigit? {acc : Nat} (hplain : '_' ∉ cs)
    (h : digitsAfter Text.asciiDigit? acc cs = some n) :
    (∀ c ∈ cs, isAsciiDigit c = true) ∧
      n = cs.foldl (fun n c => n * 10 + (c.toNat - 48)) acc := by
  induction cs generalizing acc with
  | nil => exact ⟨by simp, (Option.some.inj h).symm⟩
  | cons c cs ih =>
    rw [List.mem_cons, not_or] at hplain
    rw [digitsAfter_cons (Ne.symm hplain.1), Option.bind_eq_some_iff] at h
    obtain ⟨v, hv, hrest⟩ := h
    have hc : isAsciiDigit c = true := by rw [isAsciiDigit, hv, Option.isSome_some]
    have hvalue : v = c.toNat - 48 := by
      rw [Text.asciiDigit?, if_pos (isAsciiDigit_iff.mp hc)] at hv
      exact (Option.some.inj hv).symm
    obtain ⟨hdigits, hn⟩ := ih hplain.2 hrest
    exact ⟨List.forall_mem_cons.mpr ⟨hc, hdigits⟩, by rw [hn, List.foldl_cons, hvalue]⟩

theorem digitRun?_asciiDigit? (hplain : '_' ∉ cs) (h : digitRun? Text.asciiDigit? cs = some n) :
    (∀ c ∈ cs, isAsciiDigit c = true) ∧ n = digitsValue cs := by
  cases cs with
  | nil => cases h
  | cons c cs =>
    -- The first digit is one that follows zero.
    have hafter : digitsAfter Text.asciiDigit? 0 (c :: cs) = some n := by
      rw [List.mem_cons, not_or] at hplain
      rw [digitsAfter_cons (Ne.symm hplain.1), ← h, digitRun?]
      simp
    exact digitsAfter_asciiDigit? hplain hafter

theorem isWritable_bounded? (h : bounded? cs = some i) : isWritable i = true := by
  unfold bounded? at h
  split at h
  · cases h
  · next hshort =>
    unfold startsOverlong at hshort
    unfold plain? at h
    generalize minus cs = signed at h hshort
    obtain ⟨negative, body⟩ := signed
    dsimp only at h hshort
    split at h
    · cases h
    · cases h
      exact isWritable_zero
    · cases h
    · next hzero hfirst =>
      split at h
      · cases h
      · next hplain =>
        obtain ⟨n, hn, rfl⟩ := Option.map_eq_some_iff.mp h
        obtain ⟨hdigits, rfl⟩ := digitRun?_asciiDigit? (by simpa using hplain) hn
        rw [List.takeWhile_eq_self_iff.mpr hdigits] at hshort
        rw [isWritable_withSign]
        refine isWritable_digitsValue hdigits (fun hhead => ?_) (by simpa using hshort)
        obtain ⟨rest, rfl⟩ := List.head?_eq_some_iff.mp hhead
        exact hfirst rest rfl

theorem isWritable_ofConfig {s : String} (h : ofConfig s = .ok i) : isWritable i = true := by
  unfold ofConfig at h
  split at h
  · cases h
  · split at h
    · next n hn =>
      cases h
      obtain ⟨cs, -, hcs⟩ := Option.bind_eq_some_iff.mp hn
      exact isWritable_bounded? hcs
    · cases h

end Lengths
end ProjectComposer.Numeral
