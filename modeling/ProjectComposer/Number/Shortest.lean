import ProjectComposer.Number.Binary64

/-!
The shortest decimal text of a binary number: the fewest digits that read back to it, and of those
the nearest. Digits are chosen on decimal grids from coarse to fine; on each grid the two neighbours
of the number are tried against the interval of reals that round to it. The text is positional from
10 ^ -4 to below 10 ^ 16 and always shows a fraction or an exponent.
-/
namespace ProjectComposer.Binary64
set_option autoImplicit false

/-! ## Digits -/

/-- The interval of reals that round to `m * 2 ^ e`, in units of `2 ^ (e - 2)`. -/
structure RoundingInterval where
  low : Nat
  middle : Nat
  high : Nat
  closed : Bool

def roundingInterval (m : Nat) (e : Int) : RoundingInterval :=
  let narrow := m = leadingUnit ∧ leastExponent < e
  ⟨if narrow then 4 * m - 1 else 4 * m - 2, 4 * m, 4 * m + 2, m % 2 = 0⟩

/-- Powers `2 ^ (e - 2)` and `10 ^ k` brought to a common denominator. -/
def commonUnits (e k : Int) : Nat × Nat :=
  let up (b : Nat) (x : Int) : Nat := Nat.pow b x.toNat
  (up 2 (e - 2) * up 10 (-k), up 10 k * up 2 (2 - e))

def RoundingInterval.holds (i : RoundingInterval) (unit x : Nat) : Bool :=
  if i.closed then i.low * unit ≤ x && x ≤ i.high * unit
  else i.low * unit < x && x < i.high * unit

/-- The multiple of `10 ^ k` next to the number that rounds to it, if there is one. -/
def onGrid? (m : Nat) (e k : Int) : Option Nat :=
  let i := roundingInterval m e
  let (unit, step) := commonUnits e k
  let v := i.middle * unit
  let below := v / step
  let above := below + 1
  match i.holds unit (below * step) && 0 < below, i.holds unit (above * step) with
  | true, true =>
    let down := v - below * step
    let up := above * step - v
    some (if down < up ∨ (down = up ∧ below % 2 = 0) then below else above)
  | true, false => some below
  | false, true => some above
  | false, false => none

/-- The first of `count` grids, from `10 ^ k` downwards, that has a hit. -/
def firstGrid : Nat → Nat → Int → Int → Nat × Int
  | 0, m, e, _ => (m * Nat.pow 2 e.toNat, 0)
  | count + 1, m, e, k =>
    match onGrid? m e k with
    | some d => (d, k)
    | none => firstGrid count m e (k - 1)

/-- Digits and exponent of the shortest decimal of `m * 2 ^ e`. -/
def shortest (m : Nat) (e : Int) : Nat × Int :=
  let start := (m.log2 + e) * 30103 / 100000 + 2
  firstGrid 24 m e start

/-! ## Text -/

def digitChars (n : Nat) : List Char :=
  Nat.toDigits 10 n

def exponentText (e : Int) : String :=
  let digits := digitChars e.natAbs
  let padded := if digits.length < 2 then '0' :: digits else digits
  String.ofList ((if e < 0 then '-' else '+') :: padded)

/-- Lays out the digits of `0.digits * 10 ^ point`. -/
def layOut (digits : List Char) (point : Int) : String :=
  let n : Int := digits.length
  if -4 < point ∧ point ≤ 16 then
    if point ≤ 0 then
      "0." ++ String.ofList (List.replicate (-point).toNat '0' ++ digits)
    else if point < n then
      String.ofList (digits.take point.toNat ++ '.' :: digits.drop point.toNat)
    else String.ofList (digits ++ List.replicate (point - n).toNat '0') ++ ".0"
  else
    match digits with
    | [] => ""
    | [d] => String.ofList [d, 'e'] ++ exponentText (point - 1)
    | d :: more => String.ofList (d :: '.' :: more ++ ['e']) ++ exponentText (point - 1)

def text : Binary64 → String
  | .finite s m e =>
    let sign := if s then "-" else ""
    if m = 0 then sign ++ "0.0"
    else
      let (d, k) := shortest m e
      let digits := digitChars d
      sign ++ layOut digits (digits.length + k)
  | .infinite s => if s then "-inf" else "inf"
  | .notANumber => "nan"

end ProjectComposer.Binary64
