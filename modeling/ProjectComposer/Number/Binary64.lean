/-!
Binary floating-point numbers of 64 bits, as exact values: a finite one is ± mantissa · 2 ^ exponent
with a mantissa below 2 ^ 53 and an exponent of at least -1074. `ofRatio` rounds a quotient of
naturals to the nearest of them, a tie going to the even mantissa.
-/
namespace ProjectComposer
set_option autoImplicit false

inductive Binary64
  | finite (negative : Bool) (mantissa : Nat) (exponent : Int)
  | infinite (negative : Bool)
  | notANumber
  deriving DecidableEq, Repr, Inhabited

namespace Binary64

/-! ## Rounding -/

/-- The quotient rounded to the nearest natural, a half to the even one. -/
def roundHalfEven (num den : Nat) : Nat :=
  let q := num / den
  let r := num % den
  if 2 * r < den ∨ (2 * r = den ∧ q % 2 = 0) then q else q + 1

/-- The quotient `num / (den * 2 ^ e)` as a pair of naturals. -/
def scaled (num den : Nat) (e : Int) : Nat × Nat :=
  if 0 ≤ e then (num, den * Nat.pow 2 e.toNat) else (num * Nat.pow 2 (-e).toNat, den)

/-- The least mantissa of 53 binary digits, `2 ^ 52`. -/
def leadingUnit : Nat := 4503599627370496

def leastExponent : Int := -1074

def greatestExponent : Int := 971

/-- The exponent that gives the quotient a mantissa of 53 bits, or the least one. -/
def exponentFor (num den : Nat) : Int :=
  let e : Int := num.log2 - den.log2 - 52
  let (n, d) := scaled num den e
  max leastExponent (if leadingUnit * d ≤ n then e else e - 1)

def ofRatio (negative : Bool) (num den : Nat) : Binary64 :=
  if num = 0 then .finite negative 0 leastExponent
  else
    let e := exponentFor num den
    let (n, d) := scaled num den e
    let m := roundHalfEven n d
    let (m, e) := if m = 2 * leadingUnit then (leadingUnit, e + 1) else (m, e)
    if greatestExponent < e then .infinite negative else .finite negative m e

/-- The number nearest to `± m * 10 ^ e`. -/
def ofDecimal (negative : Bool) (m : Nat) (e : Int) : Binary64 :=
  if m = 0 ∨ e < -(1100 + m.log2 : Int) then .finite negative 0 leastExponent
  else if 400 < e then .infinite negative
  else if 0 ≤ e then ofRatio negative (m * Nat.pow 10 e.toNat) 1
  else ofRatio negative m (Nat.pow 10 (-e).toNat)

/-- The number nearest to an integer, infinite beyond the greatest finite one. -/
def ofInt (i : Int) : Binary64 :=
  ofRatio (i < 0) i.natAbs 1

/-! ## Integers -/

/-- The integer a finite number is equal to, if there is one. -/
def toInt? : Binary64 → Option Int
  | .finite s m e =>
    let signed (n : Nat) : Int := if s then -n else n
    if 0 ≤ e then some (signed (m * Nat.pow 2 e.toNat))
    else
      let unit := Nat.pow 2 (-e).toNat
      if m % unit = 0 then some (signed (m / unit)) else none
  | _ => none

def isFinite : Binary64 → Bool
  | .finite .. => true
  | _ => false

end Binary64
end ProjectComposer
