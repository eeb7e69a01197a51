/-!
Decimal digits of every script. The digits of a script are ten neighbouring code points, zero first,
so a script is known by its zero; `decimalValue?` is the value of a digit and `none` of any other
character. Numerals have the digits of edition 14 of the Unicode standard, and patterns also those
of the scripts that editions 15 and 16 added.
-/
namespace ProjectComposer.Text
set_option autoImplicit false

/-- The zeros of the scripts that have decimal digits (general category Nd). -/
def digitZeros : List Nat :=
  [0x30, 0x660, 0x6F0, 0x7C0, 0x966, 0x9E6, 0xA66, 0xAE6, 0xB66, 0xBE6, 0xC66, 0xCE6, 0xD66, 0xDE6,
   0xE50, 0xED0, 0xF20, 0x1040, 0x1090, 0x17E0, 0x1810, 0x1946, 0x19D0, 0x1A80, 0x1A90, 0x1B50,
   0x1BB0, 0x1C40, 0x1C50, 0xA620, 0xA8D0, 0xA900, 0xA9D0, 0xA9F0, 0xAA50, 0xABF0, 0xFF10, 0x104A0,
   0x10D30, 0x11066, 0x110F0, 0x11136, 0x111D0, 0x112F0, 0x11450, 0x114D0, 0x11650, 0x116C0,
   0x11730, 0x118E0, 0x11950, 0x11C50, 0x11D50, 0x11DA0, 0x16A60, 0x16AC0, 0x16B50, 0x1D7CE,
   0x1D7D8, 0x1D7E2, 0x1D7EC, 0x1D7F6, 0x1E140, 0x1E2F0, 0x1E950, 0x1FBF0]

/-- The zeros that came with editions 15 and 16. -/
def laterDigitZeros : List Nat :=
  [0x10D40, 0x116D0, 0x116DA, 0x11BF0, 0x11F50, 0x16130, 0x16D70, 0x1CCF0, 0x1E4F0, 0x1E5F1]

/-- The distance from the first of the zeros that lies at most nine below. -/
def aboveZero? (zeros : List Nat) (c : Char) : Option Nat :=
  (zeros.find? fun z => z ≤ c.toNat && c.toNat ≤ z + 9).map fun z => c.toNat - z

def decimalValue? (c : Char) : Option Nat :=
  aboveZero? digitZeros c

def isDecimal (c : Char) : Bool :=
  (decimalValue? c).isSome

/-- A digit as patterns see it. -/
def isPatternDigit (c : Char) : Bool :=
  isDecimal c || (aboveZero? laterDigitZeros c).isSome

/-- The value of a digit of ASCII. -/
def asciiDigit? (c : Char) : Option Nat :=
  if '0' ≤ c ∧ c ≤ '9' then some (c.toNat - 48) else none

end ProjectComposer.Text
