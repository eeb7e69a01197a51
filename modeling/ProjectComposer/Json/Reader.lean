import ProjectComposer.Json.Value
import ProjectComposer.Number.Numeral
import ProjectComposer.Text.Quoted

/-!
Reading JSON. `Json.parse?` accepts one value with blanks around it; `NaN`, `Infinity` and
`-Infinity` count as numbers, of two members with one key the last is kept, control characters and
halves of surrogate pairs in strings are refused. The recursion is bounded by the length of the
text, which a value cannot exceed.

A document, as `Json.parseDocument?` reads it, is bounded in two ways: values nest to a depth, those
that are overwritten by later members too, and the whole part of a number has no more digits than
an integer.
-/
namespace ProjectComposer.Json
set_option autoImplicit false

/-! ## Blanks -/

def isSeparator (c : Char) : Bool :=
  c = ' ' || c = '\t' || c = '\n' || c = '\r'

def skip (cs : List Char) : List Char :=
  cs.dropWhile isSeparator

/-! ## Strings -/

def hexUnit? (a b c d : Char) : Option Nat := do
  let a ← Text.hexValue? a
  let b ← Text.hexValue? b
  let c ← Text.hexValue? c
  let d ← Text.hexValue? d
  some (((a * 16 + b) * 16 + c) * 16 + d)

def isHighSurrogate (n : Nat) : Bool := 0xD800 ≤ n && n ≤ 0xDBFF

def isLowSurrogate (n : Nat) : Bool := 0xDC00 ≤ n && n ≤ 0xDFFF

def joinSurrogates (high low : Nat) : Char :=
  Char.ofNat (0x10000 + (high - 0xD800) * 0x400 + (low - 0xDC00))

/-- The character of a one-letter escape. -/
def letterEscape? (c : Char) : Option Char :=
  if c = '\x22' ∨ c = '\\' ∨ c = '/' then some c
  else if c = 'b' then some '\x08'
  else if c = 'f' then some '\x0c'
  else if c = 'n' then some '\n'
  else if c = 'r' then some '\r'
  else if c = 't' then some '\t'
  else none

/-- Reads the rest of a string up to its closing quote. -/
def stringRest : List Char → Option (List Char × List Char)
  | [] => none
  | '\x22' :: rest => some ([], rest)
  | '\\' :: 'u' :: a :: b :: c :: d :: rest =>
    match hexUnit? a b c d with
    | none => none
    | some n =>
      if isHighSurrogate n then
        match rest with
        | '\\' :: 'u' :: e :: f :: g :: h :: rest =>
          match hexUnit? e f g h with
          | none => none
          | some low =>
            if isLowSurrogate low then
              (stringRest rest).map fun r => (joinSurrogates n low :: r.1, r.2)
            else none
        | _ => none
      else if isLowSurrogate n then none
      else (stringRest rest).map fun r => (Char.ofNat n :: r.1, r.2)
  | '\\' :: c :: rest =>
    match letterEscape? c with
    | none => none
    | some e => (stringRest rest).map fun r => (e :: r.1, r.2)
  | c :: rest => if c.toNat < 0x20 then none else (stringRest rest).map fun r => (c :: r.1, r.2)

section StringRest
variable {a b c d e f g h letter : Char} {n low : Nat}

theorem stringRest_quote (rest : List Char) : stringRest ('\x22' :: rest) = some ([], rest) := rfl

/-- A code unit outside the surrogates is a character by itself. -/
theorem stringRest_unit (hn : hexUnit? a b c d = some n) (hhigh : isHighSurrogate n = false)
    (hlow : isLowSurrogate n = false) (rest : List Char) :
    stringRest ('\\' :: 'u' :: a :: b :: c :: d :: rest) =
      (stringRest rest).map fun r => (Char.ofNat n :: r.1, r.2) := by
  rw [stringRest, hn]
  simp [hhigh, hlow]

theorem stringRest_surrogates (hn : hexUnit? a b c d = some n) (hhigh : isHighSurrogate n = true)
    (hlow : hexUnit? e f g h = some low) (hpair : isLowSurrogate low = true) (rest : List Char) :
    stringRest ('\\' :: 'u' :: a :: b :: c :: d :: '\\' :: 'u' :: e :: f :: g :: h :: rest) =
      (stringRest rest).map fun r => (joinSurrogates n low :: r.1, r.2) := by
  rw [stringRest, hn]
  simp [hhigh, hlow, hpair]

theorem stringRest_letter (hletter : letterEscape? letter = some c) (rest : List Char) :
    stringRest ('\\' :: letter :: rest) =
      (stringRest rest).map fun r => (c :: r.1, r.2) := by
  rw [stringRest, hletter]
  rintro a b d e rest' rfl
  cases hletter

theorem stringRest_plain (hquote : c ≠ '\x22') (hslash : c ≠ '\\') (hspace : ' ' ≤ c)
    (rest : List Char) :
    stringRest (c :: rest) = (stringRest rest).map fun r => (c :: r.1, r.2) := by
  have hcontrol : ¬ c.toNat < 0x20 := Nat.not_lt.mpr hspace
  rw [stringRest, if_neg hcontrol]
  · exact hquote
  · rintro a b d e rest' ⟨⟩
    exact absurd rfl hslash
  · rintro e rest' ⟨⟩
    exact absurd rfl hslash

end StringRest

/-! ## Numbers -/

/-- Digits of a whole part: zero alone, or a run that starts with no zero. -/
def isWhole (digits : List Char) : Bool :=
  match digits with
  | [] => false
  | ['0'] => true
  | '0' :: _ => false
  | _ => true

/-- Reads an exponent and its letter, where one stands. -/
def exponentPart (cs : List Char) : Option (Option Int × List Char) :=
  match cs with
  | c :: rest =>
    if c = 'e' ∨ c = 'E' then
      let (negative, body) := Numeral.signed rest
      let digits := body.takeWhile Numeral.isAsciiDigit
      if digits.isEmpty then none
      else
        some (some (Numeral.withSign negative (Numeral.digitsValue digits)),
          body.dropWhile Numeral.isAsciiDigit)
    else some (none, cs)
  | [] => some (none, [])

def numberBody (bounded negative : Bool) (cs : List Char) : Option (Json × List Char) :=
  let whole := cs.takeWhile Numeral.isAsciiDigit
  let rest := cs.dropWhile Numeral.isAsciiDigit
  if !isWhole whole || (bounded && Numeral.isOverlong whole) then none
  else
    match rest with
    | '.' :: more =>
      let fraction := more.takeWhile Numeral.isAsciiDigit
      if fraction.isEmpty then none
      else
        (exponentPart (more.dropWhile Numeral.isAsciiDigit)).map fun r =>
          (.real (Numeral.decimal negative whole fraction (r.1.getD 0)), r.2)
    | _ =>
      (exponentPart rest).map fun r =>
        match r.1 with
        | some e => (.real (Numeral.decimal negative whole [] e), r.2)
        | none => (.int (Numeral.withSign negative (Numeral.digitsValue whole)), r.2)

/-- The rest of a text after a word at its beginning. -/
def after? (word : String) (cs : List Char) : Option (List Char) :=
  if word.toList.isPrefixOf cs then some (cs.drop word.toList.length) else none

def number? (bounded : Bool) (cs : List Char) : Option (Json × List Char) :=
  match cs with
  | '-' :: rest =>
    match after? "Infinity" rest with
    | some r => some (.real (.infinite true), r)
    | none => numberBody bounded true rest
  | _ => numberBody bounded false cs

def word? (cs : List Char) : Option (Json × List Char) :=
  [("null", Json.null), ("true", .bool true), ("false", .bool false),
    ("NaN", .real .notANumber), ("Infinity", .real (.infinite false))].findSome? fun w =>
    (after? w.1 cs).map fun rest => (w.2, rest)

/-! ## Values -/

/-- How many levels deeper values may still nest; there is no bound where there is no number. -/
abbrev Room := Option Nat

/-- The room inside a list or an object, where it may be entered. -/
def Room.inner? : Room → Option Room
  | none => some none
  | some 0 => none
  | some (n + 1) => some (some n)

def Room.isBounded (room : Room) : Bool :=
  room.isSome

mutual
def value? (room : Room) : Nat → List Char → Option (Json × List Char)
  | 0, _ => none
  | fuel + 1, cs =>
    match skip cs with
    | '\x22' :: rest => (stringRest rest).map fun r => (.text (String.ofList r.1), r.2)
    | '[' :: rest =>
      match skip rest with
      | ']' :: rest => some (.list [], rest)
      | rest => room.inner?.bind fun room =>
        (items? room fuel rest).map fun r => (.list r.1, r.2)
    | '\x7b' :: rest =>
      match skip rest with
      | '\x7d' :: rest => some (.object [], rest)
      | rest => room.inner?.bind fun room =>
        (members? room fuel rest).map fun r => (.object (Table.ofPairs r.1), r.2)
    | rest => (word? rest).or (number? room.isBounded rest)

/-- Reads the items of a list, one at least, and its closing bracket. -/
def items? (room : Room) : Nat → List Char → Option (List Json × List Char)
  | 0, _ => none
  | fuel + 1, cs =>
    match value? room fuel cs with
    | none => none
    | some (v, rest) =>
      match skip rest with
      | ',' :: rest => (items? room fuel rest).map fun r => (v :: r.1, r.2)
      | ']' :: rest => some ([v], rest)
      | _ => none

/-- Reads the members of an object, one at least, and its closing brace. -/
def members? (room : Room) : Nat → List Char → Option (List (String × Json) × List Char)
  | 0, _ => none
  | fuel + 1, cs =>
    match skip cs with
    | '\x22' :: rest =>
      match stringRest rest with
      | none => none
      | some (key, rest) =>
        match skip rest with
        | ':' :: rest =>
          match value? room fuel rest with
          | none => none
          | some (v, rest) =>
            match skip rest with
            | ',' :: rest =>
              (members? room fuel rest).map fun r => ((String.ofList key, v) :: r.1, r.2)
            | '\x7d' :: rest => some ([(String.ofList key, v)], rest)
            | _ => none
        | _ => none
    | _ => none
end

/-- Reads one value that takes up the whole text. -/
def parseChars? (room : Room) (cs : List Char) : Option Json :=
  match value? room (2 * cs.length + 1) cs with
  | some (v, rest) => if (skip rest).isEmpty then some v else none
  | none => none

def parse? (s : String) : Option Json :=
  parseChars? none s.toList

/-- The deepest nesting that a document may have. -/
def documentNesting : Nat := 200

/-- Reads a document, which is bounded. -/
def parseDocument? (s : String) : Option Json :=
  parseChars? (some documentNesting) s.toList

end ProjectComposer.Json
