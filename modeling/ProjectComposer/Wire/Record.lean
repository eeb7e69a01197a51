import ProjectComposer.Wire.Codec

/-!
Codecs of records. `Fields` lists the fields of a record from left to right with the codec of
each; unknown members of an object are ignored. The values of the fields form a nested pair, which
a record type takes apart and puts together with `Codec.imap`.
-/
namespace ProjectComposer.Wire
set_option autoImplicit false

/-! ## Field names -/

structure FieldName where
  snake : String
  camel : String

/-- A field whose two spellings agree. -/
def FieldName.plain (s : String) : FieldName :=
  ⟨s, s⟩

def FieldName.spell (f : FieldName) : Naming → String
  | .camel => f.camel
  | .snake => f.snake

/-- The member of an object that belongs to a field, with the spelling found. -/
def FieldName.find? (f : FieldName) (m : Json.Object) : Option (String × Json) :=
  match m.get? f.camel with
  | some v => some (f.camel, v)
  | none => (m.get? f.snake).map fun v => (f.snake, v)

/-- Upper case for the first letter of each run of letters and lower case for the others. -/
def titleFrom (afterLetter : Bool) : List Char → List Char
  | [] => []
  | c :: rest =>
    let small := Numeral.lowerAscii c
    let isLetter : Bool := 'a' ≤ small && small ≤ 'z'
    (if isLetter && !afterLetter then Char.ofNat (small.toNat - 32) else small) ::
      titleFrom isLetter rest

def FieldName.title (f : FieldName) : String :=
  String.ofList (titleFrom false f.camel.toList)

/-! ## References -/

namespace Codec

/-- The title of the values that a codec describes, where they have one. -/
def title {α : Type} (c : Codec α) : String :=
  ((Table.get? c.describe "title").bind Json.text?).getD ""

/-- The same codec, described by where its description stands among those of a service. -/
def elsewhere {α : Type} (c : Codec α) : Codec α :=
  { c with describe := [("$ref", .text ("#/components/schemas/" ++ c.title))] }

/-- Holds of a description that stands elsewhere, also of one that allows `null` beside it. -/
def isElsewhere (description : Json.Object) : Bool :=
  let refers (m : Json.Object) : Bool := (m.get? "$ref").isSome
  refers description ||
    match description.get? "anyOf" with
    | some (.list (.object m :: _)) => refers m
    | _ => false

end Codec

/-! ## Fields -/

/-- The codecs of fields; `needed` names the fields that have to be there. -/
structure Fields (α : Type) where
  read : Source → Json.Object → Checked α
  write : Naming → α → Json.Object
  describe : Json.Object
  needed : List String

namespace Fields
variable {α β : Type}

def done : Fields Unit where
  read _ _ := .ok ()
  write _ _ := []
  describe := []
  needed := []

/-- Reads the member of a field, or takes what stands for its absence; without a value for that, the
issue shows the whole object. -/
def readField (f : FieldName) (c : Codec α) (absent : Option α) (source : Source)
    (m : Json.Object) : Checked α :=
  match f.find? m with
  | some (key, v) => (c.read source v).within (.name key)
  | none =>
    match absent with
    | some a => .ok a
    | none => (Checked.fail (.object m) .missing).within (.name f.camel)

def imap (forth : α → β) (back : β → α) (f : Fields α) : Fields β where
  read s m := (f.read s m).map forth
  write n b := f.write n (back b)
  describe := f.describe
  needed := f.needed

/-- What a field is, with its title; a record elsewhere has its own. -/
def entitled (f : FieldName) (description : Json.Object) : Json.Object :=
  if Codec.isElsewhere description then description
  else description ++ [("title", .text f.title)]

/-- A field with a rule for its absence; `shown` is what its description adds. -/
def field (f : FieldName) (c : Codec α) (absent : Option α) (shown : Json.Object)
    (rest : Fields β) : Fields (α × β) where
  read s m := (readField f c absent s m).both (rest.read s m)
  write n p := (f.spell n, c.write n p.1) :: rest.write n p.2
  describe := (f.camel, .object (entitled f c.describe ++ shown)) :: rest.describe
  needed := if absent.isNone then f.camel :: rest.needed else rest.needed

def required (f : FieldName) (c : Codec α) (rest : Fields β) : Fields (α × β) :=
  field f c none [] rest

/-- A field with a default that its description shows. -/
def withDefault (f : FieldName) (c : Codec α) (d : α) (rest : Fields β) : Fields (α × β) :=
  field f c (some d) [("default", c.write .camel d)] rest

/-- A field with a default that its description leaves out. -/
def withFresh (f : FieldName) (c : Codec α) (d : α) (rest : Fields β) : Fields (α × β) :=
  field f c (some d) [] rest

end Fields

/-- The codec of a record; `name` stands in the issues of values that are no objects. -/
def Codec.record {α : Type} (name : String) (f : Fields α) : Codec α where
  read s v :=
    match v with
    | .object m => f.read s m
    | _ => .fail v (.notRecord name)
  write n a := .object (f.write n a)
  describe :=
    [("properties", .object f.describe), ("title", .text name), ("type", .text "object")] ++
    (if f.needed = [] then [] else [("required", Json.texts f.needed)])

/-! ## Reading whole values -/

/-- Reads a value of a record type, with the name of the record in its rejection. -/
def Codec.validate {α : Type} (c : Codec α) (name : String) (source : Source) (v : Json) :
    Except Rejection α :=
  match c.read source v with
  | .ok a => .ok a
  | .error issues => .error ⟨name, source, issues⟩

end ProjectComposer.Wire
