import Mathlib.Data.List.Forall2
import ProjectComposer.Wire.Record

/-!
Shapes: what a value is declared to be, apart from how it is read and written. The shape of a record
lists its fields in order, each under two names, with what it holds and what stands for its absence.
Values of every shape are trees of one type, so what reads and writes them can be any library that
is handed a shape. `Library.Documented` is what is known of it: which values are taken as they stand
and what every accepted value satisfies. How truth values and numbers are coerced is left open.
-/
namespace ProjectComposer.Wire
set_option autoImplicit false

/-! ## Rules -/

def Codec.TextRule.allows (r : Codec.TextRule) (s : String) : Bool :=
  r.least ≤ s.toList.length && (r.most.all fun most => s.toList.length ≤ most) &&
    r.pattern.all fun p => p.holds s.toList

def Codec.IntRule.allows (r : Codec.IntRule) (i : Int) : Bool :=
  (r.most.all fun most => i ≤ most) && (r.least.all fun least => least ≤ i) &&
    r.above.all fun above => above < i

def Codec.ListRule.allows (r : Codec.ListRule) (length : Nat) : Bool :=
  r.least ≤ length && r.most.all fun most => length ≤ most

/-! ## Values -/

inductive Value
  | absent
  | text (s : String)
  | bool (b : Bool)
  | int (i : Int)
  | number (x : Binary64)
  /-- A dictionary of anything. -/
  | object (m : Json.Object)
  | list (items : List Value)
  | map (members : List (String × Value))
  /-- The values of the fields of a record, in order. -/
  | record (fields : List Value)

namespace Value

def isAbsent : Value → Bool
  | absent => true
  | _ => false

end Value

/-! ## Shapes -/

mutual

inductive Shape
  | text (rule : Codec.TextRule)
  | bool
  | int (rule : Codec.IntRule)
  | number
  | oneOf (names : List String)
  | object
  | list (rule : Codec.ListRule) (item : Shape)
  | map (member : Shape)
  | optional (present : Shape)
  | record (fields : FieldShapes)

inductive FieldShapes
  | done
  | field (name : FieldName) (shape : Shape) (absent : Option Value) (rest : FieldShapes)

end

mutual

/-- Whether a value is of a shape and keeps its rules. -/
def Shape.fits : Shape → Value → Bool
  | .text r, .text s => r.allows s
  | .bool, .bool _ => true
  | .int r, .int i => r.allows i
  | .number, .number _ => true
  | .oneOf names, .text s => names.contains s
  | .object, .object _ => true
  | .list r item, .list vs => r.allows vs.length && vs.all fun v => item.fits v
  | .map member, .map t => t.all fun e => member.fits e.2
  | .optional present, v => v.isAbsent || present.fits v
  | .record fields, .record vs => fields.fits vs
  | _, _ => false

def FieldShapes.fits : FieldShapes → List Value → Bool
  | .done, [] => true
  | .field _ shape _ rest, v :: vs => shape.fits v && rest.fits vs
  | _, _ => false

end

def FieldShapes.names : FieldShapes → List FieldName
  | .done => []
  | .field name _ _ rest => name :: rest.names

/-! ## Libraries -/

/-- What reads values of declared shapes and writes them. -/
structure Library where
  validate : Shape → Json → Option Value
  dump : Naming → Shape → Value → Json

namespace Library
variable (L : Library)

/-- A field is read from the member under its first name, else under its second, and else takes what
stands for its absence. -/
def readField (m : Json.Object) (name : FieldName) (shape : Shape) (absent : Option Value) :
    Option Value :=
  match name.find? m with
  | some (_, v) => L.validate shape v
  | none => absent

/-- The fields of a record have been read from an object; other members make no difference. -/
def Reads (m : Json.Object) : FieldShapes → List Value → Prop
  | .done, [] => True
  | .field name shape absent rest, a :: as =>
    L.readField m name shape absent = some a ∧ Reads m rest as
  | _, _ => False

/-- Every field under the name of a spelling. -/
def dumpFields (n : Naming) : FieldShapes → List Value → Json.Object
  | .field name shape _ rest, a :: as =>
    (name.spell n, L.dump n shape a) :: dumpFields n rest as
  | _, _ => []

/-- What the documentation of a library says of validating and dumping. -/
structure Documented : Prop where
  /-- Texts are not coerced; bounds and pattern are checked. -/
  text : ∀ r v a, L.validate (.text r) v = some a ↔
    ∃ s, v = .text s ∧ r.allows s = true ∧ a = .text s
  /-- A truth value is taken as it stands. -/
  bool_self : ∀ b, L.validate .bool (.bool b) = some (.bool b)
  /-- Whatever else is accepted becomes a truth value. -/
  bool_some : ∀ v a, L.validate .bool v = some a → ∃ b, a = .bool b
  /-- An integer within the bounds is taken as it stands. -/
  int_self : ∀ r i, r.allows i = true → L.validate (.int r) (.int i) = some (.int i)
  /-- Whatever else is accepted becomes an integer within the bounds. -/
  int_some : ∀ r v a, L.validate (.int r) v = some a → ∃ i, a = .int i ∧ r.allows i = true
  /-- A number is taken as it stands. -/
  number_self : ∀ x, L.validate .number (.real x) = some (.number x)
  /-- Whatever else is accepted becomes a number. -/
  number_some : ∀ v a, L.validate .number v = some a → ∃ x, a = .number x
  /-- Alternatives are accepted by their exact names. -/
  oneOf : ∀ names v a, L.validate (.oneOf names) v = some a ↔
    ∃ s ∈ names, v = .text s ∧ a = .text s
  /-- The members of a dictionary of anything are not looked at. -/
  object : ∀ v a, L.validate .object v = some a ↔ ∃ m, v = .object m ∧ a = .object m
  /-- A list is validated item by item and its length is checked. -/
  list : ∀ r item v a, L.validate (.list r item) v = some a ↔ ∃ vs as, v = .list vs ∧
    List.Forall₂ (fun v a => L.validate item v = some a) vs as ∧
    r.allows as.length = true ∧ a = .list as
  /-- The values of a dictionary are validated, its keys are kept. -/
  map : ∀ member v a, L.validate (.map member) v = some a ↔ ∃ m t, v = .object m ∧
    List.Forall₂ (fun e f => e.1 = f.1 ∧ L.validate member e.2 = some f.2) m t ∧ a = .map t
  /-- Absence is written as `null`. -/
  optional_null : ∀ present, L.validate (.optional present) .null = some .absent
  /-- Anything else is validated as what may be absent. -/
  optional_some : ∀ present v, v ≠ .null →
    L.validate (.optional present) v = L.validate present v
  /-- A record is read from an object, field by field. -/
  record : ∀ fields v a, L.validate (.record fields) v = some a ↔
    ∃ m as, v = .object m ∧ L.Reads m fields as ∧ a = .record as
  /-- Plain values are dumped as they are. -/
  dump_text : ∀ n r s, L.dump n (.text r) (.text s) = .text s
  dump_bool : ∀ n b, L.dump n .bool (.bool b) = .bool b
  dump_int : ∀ n r i, L.dump n (.int r) (.int i) = .int i
  dump_number : ∀ n x, L.dump n .number (.number x) = .real x
  dump_oneOf : ∀ n names s, L.dump n (.oneOf names) (.text s) = .text s
  dump_object : ∀ n m, L.dump n .object (.object m) = .object m
  /-- Containers are dumped part by part. -/
  dump_list : ∀ n r item as, L.dump n (.list r item) (.list as) = .list (as.map (L.dump n item))
  dump_map : ∀ n member t, L.dump n (.map member) (.map t) =
    .object (t.map fun e => (e.1, L.dump n member e.2))
  dump_absent : ∀ n present, L.dump n (.optional present) .absent = .null
  dump_present : ∀ n present a, a.isAbsent = false →
    L.dump n (.optional present) a = L.dump n present a
  /-- A record is dumped with all of its fields, under the names asked for. -/
  dump_record : ∀ n fields as, L.dump n (.record fields) (.record as) =
    .object (L.dumpFields n fields as)

end Library

/-! ## The library of the codecs -/

mutual

/-- Reads a value of a shape as codecs read values. -/
def Shape.read (source : Source) : Shape → Json → Option Value
  | .text r, .text s => if r.allows s then some (.text s) else none
  | .bool, v => (Codec.readBool v).toOption.map .bool
  | .int r, v => ((Codec.readInt v).toOption.filter r.allows).map .int
  | .number, v => (Codec.readNumber source v).toOption.map .number
  | .oneOf names, .text s => if s ∈ names then some (.text s) else none
  | .object, .object m => some (.object m)
  | .list r item, .list vs =>
    ((vs.mapM fun v => item.read source v).filter fun as => r.allows as.length).map .list
  | .map member, .object m =>
    (m.mapM fun e => (member.read source e.2).map fun a => (e.1, a)).map .map
  | .optional _, .null => some .absent
  | .optional present, v => present.read source v
  | .record fields, .object m => (fields.read source m).map .record
  | _, _ => none

def FieldShapes.read (source : Source) : FieldShapes → Json.Object → Option (List Value)
  | .done, _ => some []
  | .field name shape absent rest, m =>
    (match name.find? m with
      | some (_, v) => shape.read source v
      | none => absent).bind fun a => (rest.read source m).map fun as => a :: as

end

mutual

/-- Writes a value of a shape as codecs write values. -/
def Shape.write (n : Naming) : Shape → Value → Json
  | .list _ item, .list as => .list (as.map fun a => item.write n a)
  | .map member, .map t => .object (t.map fun e => (e.1, member.write n e.2))
  | .optional present, a => if a.isAbsent then .null else present.write n a
  | .record fields, .record as => .object (fields.write n as)
  | _, .text s => .text s
  | _, .bool b => .bool b
  | _, .int i => .int i
  | _, .number x => .real x
  | _, .object m => .object m
  | _, _ => .null

def FieldShapes.write (n : Naming) : FieldShapes → List Value → Json.Object
  | .field name shape _ rest, a :: as => (name.spell n, shape.write n a) :: rest.write n as
  | _, _ => []

end

/-- The library that reads values from one source the way codecs do. -/
def Library.ofCodecs (source : Source) : Library where
  validate := Shape.read source
  dump := Shape.write

end ProjectComposer.Wire
