import ProjectComposer.Json.Value
import ProjectComposer.Number.Numeral
import ProjectComposer.Text.Sorted
import ProjectComposer.Wire.Checked

/-!
Codecs: how a value is read from JSON, written to it and described. Reading coerces what has one
plain meaning (a numeral in a text, a truth value in a word) and writing gives the coerced value, so
what is written reads back to the same value.

A field has two spellings, with inner capitals and with underscores. Reading looks for the first and
then the second and names the one it found; an absent field is named by the first.
-/
namespace ProjectComposer.Wire
set_option autoImplicit false

/-! ## Codecs of single values -/

/-- The spelling of field names in a written value. -/
inductive Naming
  | camel
  | snake
  deriving DecidableEq, Repr

structure Codec (α : Type) where
  read : Source → Json → Checked α
  write : Naming → α → Json
  describe : Json.Object

namespace Codec
variable {α β : Type}

def imap (forth : α → β) (back : β → α) (c : Codec α) : Codec β where
  read s v := (c.read s v).map forth
  write n b := c.write n (back b)
  describe := c.describe

def any : Codec Json where
  read _ v := .ok v
  write _ v := v
  describe := []

/-! ### Texts -/

/-- A pattern that a whole text has to match. -/
structure Pattern where
  text : String
  holds : List Char → Bool

structure TextRule where
  least : Nat := 0
  most : Option Nat := none
  pattern : Option Pattern := none

/-- Only the first broken part of a rule is reported: upper bound, lower bound, pattern. -/
def TextRule.check (r : TextRule) (s : String) : Except Problem String :=
  let n := s.toList.length
  if r.most.any fun most => most < n then .error (.textTooLong (r.most.getD 0))
  else if n < r.least then .error (.textTooShort r.least)
  else
    match r.pattern with
    | some p => if p.holds s.toList then .ok s else .error (.textPattern p.text)
    | none => .ok s

def TextRule.describe (r : TextRule) : Json.Object :=
  (match r.most with
    | some n => [("maxLength", Json.int n)]
    | none => []) ++
  (if r.least = 0 then [] else [("minLength", Json.int r.least)]) ++
  (match r.pattern with
    | some p => [("pattern", Json.text p.text)]
    | none => [])

def textWith (r : TextRule) : Codec String where
  read _ v := .judge v <|
    match v with
    | .text s => r.check s
    | _ => .error .notText
  write _ s := .text s
  describe := r.describe ++ [("type", .text "string")]

def text : Codec String :=
  textWith {}

/-! ### Truth values -/

def trueWords : List String := ["1", "t", "y", "on", "yes", "true"]

def falseWords : List String := ["0", "f", "n", "no", "off", "false"]

def leastWord64 : Int := -9223372036854775808

/-- Integers of 64 bits, as which alone other numbers count. -/
def isWord64 (i : Int) : Bool :=
  leastWord64 ≤ i && i < -leastWord64

/-- Integers of 64 bits but the least; a real number counts as one of these. -/
def isWordInside (i : Int) : Bool :=
  isWord64 i && i ≠ leastWord64

def boolOfInt (i : Int) : Except Problem Bool :=
  if !isWord64 i then .error .notBool
  else if i = 0 then .ok false
  else if i = 1 then .ok true
  else .error .boolText

def boolOfText (s : String) : Except Problem Bool :=
  let small := String.ofList (s.toList.map Numeral.lowerAscii)
  if small ∈ trueWords then .ok true
  else if small ∈ falseWords then .ok false
  else .error .boolText

def readBool : Json → Except Problem Bool
  | .bool b => .ok b
  | .text s => boolOfText s
  | .int i => boolOfInt i
  | .real x =>
    match x.toInt? with
    | some i => if isWordInside i then boolOfInt i else .error .notBool
    | none => .error .notBool
  | _ => .error .notBool

def bool : Codec Bool where
  read _ v := .judge v (readBool v)
  write _ b := .bool b
  describe := [("type", .text "boolean")]

/-! ### Numbers -/

structure IntRule where
  above : Option Int := none
  least : Option Int := none
  most : Option Int := none

def IntRule.check (r : IntRule) (i : Int) : Except Problem Int :=
  if r.most.any fun most => most < i then .error (.notAtMost (r.most.getD 0))
  else if r.least.any fun least => i < least then .error (.notAtLeast (r.least.getD 0))
  else if r.above.any fun above => i ≤ above then .error (.notAbove (r.above.getD 0))
  else .ok i

def readInt : Json → Except Problem Int
  | .int i => .ok i
  | .bool b => .ok (if b then 1 else 0)
  | .real x =>
    if !x.isFinite then .error .intInfinite
    else
      match x.toInt? with
      | some i => if isWordInside i then .ok i else .error .intSize
      | none => .error .intFraction
  | .text s =>
    match Numeral.ofConfig s with
    | .ok i => .ok i
    | .error .unreadable => .error .intText
    | .error .tooLong => .error .intSize
  | _ => .error .notInt

def intWith (r : IntRule) : Codec Int where
  read _ v := .judge v ((readInt v).bind r.check)
  write _ i := .int i
  describe :=
    (match r.most with
      | some n => [("maximum", Json.int n)]
      | none => []) ++
    (match r.least with
      | some n => [("minimum", Json.int n)]
      | none => []) ++
    (match r.above with
      | some n => [("exclusiveMinimum", Json.int n)]
      | none => []) ++
    [("type", .text "integer")]

/-- An integer beyond all finite numbers is infinite in a document and refused elsewhere. -/
def readNumber (source : Source) : Json → Except Problem Binary64
  | .real x => .ok x
  | .int i =>
    let x := Binary64.ofInt i
    if x.isFinite ∨ source = .document then .ok x else .error .notNumber
  | .bool b => .ok (.ofRatio false (if b then 1 else 0) 1)
  | .text s =>
    match Numeral.number? s with
    | some x => .ok x
    | none => .error .numberText
  | _ => .error .notNumber

def number : Codec Binary64 where
  read s v := .judge v (readNumber s v)
  write _ x := .real x
  describe := [("type", .text "number")]

/-! ### Containers -/

structure ListRule where
  least : Nat := 0
  most : Option Nat := none

def ListRule.check {γ : Type} (r : ListRule) (l : List γ) : Except Problem (List γ) :=
  if l.length < r.least then .error (.listTooShort r.least l.length) else .ok l

/-- A list that is too long is refused before its items are read, one that is too short after. -/
def readList (r : ListRule) (c : Codec α) (source : Source) (v : Json) : Checked (List α) :=
  match v with
  | .list l =>
    if r.most.any fun most => most < l.length then
      .fail v (.listTooLong (r.most.getD 0) l.length)
    else (Checked.items (c.read source) 0 l).bind fun items => Checked.judge v (r.check items)
  | _ => .fail v .notList

def listWith (r : ListRule) (c : Codec α) : Codec (List α) where
  read := readList r c
  write n l := .list (l.map (c.write n))
  describe :=
    [("items", .object c.describe)] ++
    (match r.most with
      | some n => [("maxItems", Json.int n)]
      | none => []) ++
    (if r.least = 0 then [] else [("minItems", Json.int r.least)]) ++
    [("type", .text "array")]

def list (c : Codec α) : Codec (List α) :=
  listWith {} c

/-- A list that is called a tuple. -/
def tuple (c : Codec α) : Codec (List α) where
  read s v :=
    match v with
    | .list l => Checked.items (c.read s) 0 l
    | _ => .fail v .notTuple
  write n l := .list (l.map (c.write n))
  describe := [("items", .object c.describe), ("type", .text "array")]

/-- A set of texts, written in order. -/
def textSet : Codec (List String) where
  read s v :=
    match v with
    | .list l => (Checked.items (text.read s) 0 l).map Text.sortedDistinct
    | _ => .fail v .notSet
  write _ l := Json.texts l
  describe :=
    [("items", .object text.describe), ("type", .text "array"), ("uniqueItems", .bool true)]

def optional (c : Codec α) : Codec (Option α) where
  read s v :=
    match v with
    | .null => .ok none
    | v => (c.read s v).map some
  write n o := Json.optional (c.write n) o
  describe := [("anyOf", .list [.object c.describe, .object [("type", .text "null")]])]

/-- An object as it stands, whatever its members are. -/
def object : Codec Json.Object where
  read _ v :=
    match v with
    | .object m => .ok m
    | _ => .fail v .notMap
  write _ m := .object m
  describe := [("additionalProperties", .bool true), ("type", .text "object")]

/-- A map from texts to values of one kind. -/
def map (c : Codec α) : Codec (Table α) where
  read s v :=
    match v with
    | .object m => Checked.members (c.read s) m
    | _ => .fail v .notMap
  write n t := .object (t.map fun e => (e.1, c.write n e.2))
  describe := [("additionalProperties", .object c.describe), ("type", .text "object")]

end Codec

/-! ## Named alternatives -/

/-- A type of finitely many values, each with a name on the wire. -/
class Named (α : Type) where
  all : List α
  name : α → String

namespace Named
variable {α : Type} [Named α]

def names (α : Type) [Named α] : List String :=
  (all : List α).map name

def ofName? (s : String) : Option α :=
  (all : List α).find? fun a => name a = s

end Named

def Codec.oneOf {α : Type} [Named α] : Codec α where
  read _ v :=
    match v with
    | .text s =>
      match Named.ofName? s with
      | some a => .ok a
      | none => .fail v (.notOneOf (Named.names α))
    | _ => .fail v (.notOneOf (Named.names α))
  write _ a := .text (Named.name a)
  describe := [("enum", Json.texts (Named.names α)), ("type", .text "string")]

end ProjectComposer.Wire
