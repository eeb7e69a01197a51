import Mathlib.Tactic.SplitIfs
import ProjectComposer.Json.Reader
import ProjectComposer.Json.Writer

/-!
Quoted strings, read back. Every character comes back from the escape it is written by: quotes,
backslashes and control characters from their letters or their code unit, characters outside ASCII
from the code units of UTF-16, those beyond the first plane from two of them.
-/
namespace ProjectComposer.Json
set_option autoImplicit false

variable {n : Nat} {c : Char}

/-! ## Code units -/

theorem hexValue?_hexDigit : ∀ n < 16, Text.hexValue? (Text.hexDigit n) = some n := by
  decide

/-- Four digits are read as the number that they were written of. -/
theorem hexUnit?_hexDigit (h : n < 0x10000) :
    hexUnit? (Text.hexDigit (n / 0x1000 % 16)) (Text.hexDigit (n / 0x100 % 16))
      (Text.hexDigit (n / 0x10 % 16)) (Text.hexDigit (n % 16)) = some n := by
  have hdigit (k : Nat) : Text.hexValue? (Text.hexDigit (k % 16)) = some (k % 16) :=
    hexValue?_hexDigit _ (Nat.mod_lt _ (by decide))
  simp only [hexUnit?, hdigit, bind, Option.bind_some, Option.some.injEq]
  omega

theorem unitEscape_eq (n : Nat) : unitEscape n =
    ['\\', 'u', Text.hexDigit (n / 0x1000 % 16), Text.hexDigit (n / 0x100 % 16),
      Text.hexDigit (n / 0x10 % 16), Text.hexDigit (n % 16)] := by
  simp [unitEscape, Text.hexDigits, Nat.div_div_eq_div_mul]

theorem stringRest_unitEscape (hn : n < 0x10000) (hhigh : isHighSurrogate n = false)
    (hlow : isLowSurrogate n = false) (rest : List Char) : stringRest (unitEscape n ++ rest) =
      (stringRest rest).map fun r => (Char.ofNat n :: r.1, r.2) := by
  rw [unitEscape_eq]
  exact stringRest_unit (hexUnit?_hexDigit hn) hhigh hlow rest

theorem isHighSurrogate_iff : isHighSurrogate n = true ↔ 0xD800 ≤ n ∧ n ≤ 0xDBFF := by
  simp [isHighSurrogate]

theorem isLowSurrogate_iff : isLowSurrogate n = true ↔ 0xDC00 ≤ n ∧ n ≤ 0xDFFF := by
  simp [isLowSurrogate]

theorem stringRest_unitEscapes {high low : Nat} (hhigh : isHighSurrogate high = true)
    (hlow : isLowSurrogate low = true) (rest : List Char) :
    stringRest (unitEscape high ++ (unitEscape low ++ rest)) =
      (stringRest rest).map fun r => (joinSurrogates high low :: r.1, r.2) := by
  have hhigh' : high < 0x10000 := by
    have hbounds := isHighSurrogate_iff.mp hhigh
    omega
  have hlow' : low < 0x10000 := by
    have hbounds := isLowSurrogate_iff.mp hlow
    omega
  rw [unitEscape_eq, unitEscape_eq]
  exact stringRest_surrogates (hexUnit?_hexDigit hhigh') hhigh (hexUnit?_hexDigit hlow') hlow rest

/-! ## Characters -/

/-- The two units of a character beyond the first plane are surrogates that join to it. -/
theorem joinSurrogates_units (h : 0x10000 ≤ c.toNat) :
    let offset := c.toNat - 0x10000
    isHighSurrogate (0xD800 + offset / 0x400) = true ∧
      isLowSurrogate (0xDC00 + offset % 0x400) = true ∧
      joinSurrogates (0xD800 + offset / 0x400) (0xDC00 + offset % 0x400) = c := by
  intro offset
  have hvalid : c.toNat < 0xD800 ∨ 0xDFFF < c.toNat ∧ c.toNat < 0x110000 := c.valid
  have hoffset : offset = c.toNat - 0x10000 := rfl
  have hjoined : 0x10000 + (0xD800 + offset / 0x400 - 0xD800) * 0x400 +
      (0xDC00 + offset % 0x400 - 0xDC00) = c.toNat := by
    omega
  refine ⟨isHighSurrogate_iff.mpr (by omega), isLowSurrogate_iff.mpr (by omega), ?_⟩
  rw [joinSurrogates, hjoined, Char.ofNat_toNat]

/-- No character is a surrogate. -/
theorem not_surrogate_toNat (c : Char) :
    isHighSurrogate c.toNat = false ∧ isLowSurrogate c.toNat = false := by
  have hvalid : c.toNat < 0xD800 ∨ 0xDFFF < c.toNat ∧ c.toNat < 0x110000 := c.valid
  rw [← Bool.not_eq_true, ← Bool.not_eq_true, isHighSurrogate_iff, isLowSurrogate_iff]
  omega

/-- A character comes back from its escape, whatever stands behind it. -/
theorem stringRest_escapeChar (c : Char) (rest : List Char) :
    stringRest (escapeChar c ++ rest) = (stringRest rest).map fun r => (c :: r.1, r.2) := by
  obtain ⟨hhigh, hlow⟩ := not_surrogate_toNat c
  unfold escapeChar
  split_ifs with hself hfeed hreturn htab hback hform hascii
  · refine stringRest_letter ?_ rest
    rcases hself with rfl | rfl <;> rfl
  · exact stringRest_letter (hfeed ▸ rfl) rest
  · exact stringRest_letter (hreturn ▸ rfl) rest
  · exact stringRest_letter (htab ▸ rfl) rest
  · exact stringRest_letter (hback ▸ rfl) rest
  · exact stringRest_letter (hform ▸ rfl) rest
  · obtain ⟨hquote, hslash⟩ := not_or.mp hself
    exact stringRest_plain hquote hslash hascii.1 rest
  -- Neither a letter nor plain: one code unit, or two of them.
  · dsimp only
    split
    · next hunit =>
      rw [stringRest_unitEscape hunit hhigh hlow, Char.ofNat_toNat]
    · next hplane =>
      obtain ⟨hhigh, hlow, hjoined⟩ := joinSurrogates_units (c := c) (Nat.not_lt.mp hplane)
      rw [List.append_assoc, stringRest_unitEscapes hhigh hlow, hjoined]

/-- What stands between the quotes of a text is read as the text. -/
theorem stringRest_flatMap_escapeChar (cs rest : List Char) :
    stringRest (cs.flatMap escapeChar ++ '\x22' :: rest) = some (cs, rest) := by
  induction cs with
  | nil => exact stringRest_quote rest
  | cons c cs ih =>
    rw [List.flatMap_cons, List.append_assoc, stringRest_escapeChar, ih]
    rfl

end ProjectComposer.Json
