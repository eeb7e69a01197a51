import ProjectComposer.Number.Binary64
import ProjectComposer.Text.Blank
import ProjectComposer.Text.DecimalDigit

/-!
Numerals in texts. `integer?` reads the numerals of settings: any script's digits, single
underscores between digits, a sign, spaces around. `ofConfig` reads the integers of node configs,
where digits are ASCII, zeros may lead and a fraction of zeros may follow, and `number?` reads
decimal fractions. An integer of more than `mostDigits` digits is neither read nor written.
-/
namespace ProjectComposer.Numeral
set_option autoImplicit false

def mostDigits : Nat := 4300

/-- Whether an integer has a text: one of too many digits is not written either. -/
@[irreducible] def isWritable (i : Int) : Bool :=
  i.natAbs < Nat.pow 10 mostDigits

/-! ## Runs of digits -/

def isAsciiDigit (c : Char) : Bool :=
  (Text.asciiDigit? c).isSome

/-- Reads the digits after a first one, with at most one underscore between neighbours. -/
def digitsAfter (value? : Char → Option Nat) (acc : Nat) : List Char → Option Nat
  | [] => some acc
  | c :: rest =>
    if c = '_' then
      match rest with
      | [] => none
      | d :: more => (value? d).bind fun v => digitsAfter value? (acc * 10 + v) more
    else (value? c).bind fun v => digitsAfter value? (acc * 10 + v) rest

def digitRun? (value? : Char → Option Nat) : List Char → Option Nat
  | [] => none
  | c :: rest => (value? c).bind fun v => digitsAfter value? v rest

/-- Splits a sign off; the flag holds of a minus. -/
def signed (cs : List Char) : Bool × List Char :=
  match cs with
  | '-' :: rest => (true, rest)
  | '+' :: rest => (false, rest)
  | _ => (false, cs)

def withSign (negative : Bool) (n : Nat) : Int :=
  if negative then -n else n

/-! ## Integers of settings -/

def integer? (s : String) : Option Int :=
  let (negative, body) := signed (Text.trimBy Text.isSpace s.toList)
  if mostDigits < (body.filter (· ≠ '_')).length then none
  else (digitRun? Text.decimalValue? body).map (withSign negative)

/-- A positive integer from an optional setting, or the default. -/
def positiveOr (default : Int) (setting : Option String) : Int :=
  match setting.bind integer? with
  | some n => if 0 < n then n else default
  | none => default

/-! ## Integers of configs -/

inductive Refusal
  | unreadable
  | tooLong
  deriving DecidableEq, Repr

/-- Drops zeros, and underscores after them, in front of a digit or a minus sign; in front of a
point and at the end the last character dropped is kept. -/
def dropZerosAfter (last : Char) : List Char → Option (List Char)
  | [] => some [last]
  | c :: rest =>
    if c = '0' ∨ c = '_' then dropZerosAfter c rest
    else if c = '.' then some (last :: c :: rest)
    else if c = '-' ∨ ('1' ≤ c ∧ c ≤ '9') then some (c :: rest)
    else none

/-- Drops leading zeros, also those after a minus sign. -/
def dropLeadingZeros : List Char → Option (List Char)
  | '0' :: rest => dropZerosAfter '0' rest
  | '-' :: rest => (dropLeadingZeros rest).map ('-' :: ·)
  | c :: rest => if '1' ≤ c ∧ c ≤ '9' then some (c :: rest) else none
  | [] => none

/-- Drops a fraction of zeros, one at least. -/
def dropZeroFraction (cs : List Char) : List Char :=
  let whole := cs.takeWhile (· ≠ '.')
  match cs.dropWhile (· ≠ '.') with
  | _ :: fraction => if fraction ≠ [] ∧ fraction.all (· = '0') then whole else cs
  | [] => cs

/-- Underscores next to one another, or at an end. -/
def straysUnderscore : List Char → Bool
  | [] => false
  | ['_'] => true
  | '_' :: '_' :: _ => true
  | _ :: rest => straysUnderscore rest

def dropUnderscores (cs : List Char) : List Char :=
  if cs.head? = some '_' || straysUnderscore cs then cs else cs.filter (· ≠ '_')

/-- Splits a minus sign off. -/
def minus (cs : List Char) : Bool × List Char :=
  match cs with
  | '-' :: rest => (true, rest)
  | _ => (false, cs)

/-- A minus sign or none, then digits of which the first is zero only alone. -/
def plain? (cs : List Char) : Option Int :=
  let (negative, body) := minus cs
  match body with
  | [] => none
  | ['0'] => some 0
  | '0' :: _ => none
  | _ =>
    if body.contains '_' then none
    else (digitRun? Text.asciiDigit? body).map (withSign negative)

def dropPlus (cs : List Char) : Option (List Char) :=
  match cs with
  | '+' :: '-' :: _ => none
  | '+' :: rest => some rest
  | _ => some cs

/-- A digit other than zero begins a run of too many digits. -/
def isOverlong (digits : List Char) : Bool :=
  digits.head? ≠ some '0' && mostDigits < digits.length

/-- A text that begins, after a minus sign or none, with too many digits; what follows them does not
matter. -/
def startsOverlong (cs : List Char) : Bool :=
  isOverlong ((minus cs).2.takeWhile isAsciiDigit)

/-- A numeral without what may be left out of it. -/
def cleaned? (cs : List Char) : Option (List Char) := do
  let cs ← dropPlus (Text.trimBy Text.isSpace cs)
  let cs ← dropLeadingZeros cs
  pure (dropUnderscores (dropZeroFraction cs))

def bounded? (cs : List Char) : Option Int :=
  if startsOverlong cs then none else plain? cs

/-- Only a text that is too long as it stands is refused as such. -/
def ofConfig (s : String) : Except Refusal Int :=
  if startsOverlong s.toList then .error .tooLong
  else
    match (cleaned? s.toList).bind bounded? with
    | some n => .ok n
    | none => .error .unreadable

/-! ## Decimal fractions -/

/-- An exponent after its letter. -/
def exponent? (cs : List Char) : Option Int :=
  let (negative, body) := signed cs
  if body.contains '_' then none else (digitRun? Text.asciiDigit? body).map (withSign negative)

def digitsValue (digits : List Char) : Nat :=
  digits.foldl (fun n c => n * 10 + (c.toNat - 48)) 0

/-- The value of `whole.fraction` times ten to an exponent. -/
def decimal (negative : Bool) (whole fraction : List Char) (e : Int) : Binary64 :=
  .ofDecimal negative (digitsValue (whole ++ fraction)) (e - fraction.length)

def lowerAscii (c : Char) : Char :=
  if 'A' ≤ c ∧ c ≤ 'Z' then Char.ofNat (c.toNat + 32) else c

def unsigned? (negative : Bool) (cs : List Char) : Option Binary64 :=
  let small := cs.map lowerAscii
  if small = "inf".toList ∨ small = "infinity".toList then some (.infinite negative)
  else if small = "nan".toList then some .notANumber
  else
    let whole := cs.takeWhile isAsciiDigit
    let rest := cs.dropWhile isAsciiDigit
    let (fraction, rest) :=
      match rest with
      | '.' :: more => (more.takeWhile isAsciiDigit, more.dropWhile isAsciiDigit)
      | _ => ([], rest)
    if whole.isEmpty && fraction.isEmpty then none
    else
      match rest with
      | [] => some (decimal negative whole fraction 0)
      | c :: more =>
        if c = 'e' ∨ c = 'E' then (exponent? more).map (decimal negative whole fraction) else none

def fraction? (cs : List Char) : Option Binary64 :=
  let (negative, body) := signed cs
  unsigned? negative body

def number? (s : String) : Option Binary64 :=
  match fraction? (Text.trimBy Text.isSpace s.toList) with
  | some x => some x
  | none =>
    let cs := s.toList
    if cs.contains '_' && !(cs.head? = some '_' || straysUnderscore cs) then
      fraction? (cs.filter (· ≠ '_'))
    else none

end ProjectComposer.Numeral
