import ProjectComposer.Number.Binary64
import ProjectComposer.Table

/-!
JSON values. Numbers written without fraction and exponent are integers of any size, all others are
binary numbers of 64 bits. The members of an object keep their order and have distinct keys when
they come from the reader.
-/
namespace ProjectComposer
set_option autoImplicit false

inductive Json
  | null
  | bool (b : Bool)
  | int (i : Int)
  | real (x : Binary64)
  | text (s : String)
  | list (items : List Json)
  | object (members : List (String × Json))
  deriving Inhabited, Repr

namespace Json

abbrev Object := Table Json

def texts (l : List String) : Json :=
  .list (l.map .text)

def optional {α : Type} (f : α → Json) : Option α → Json
  | none => .null
  | some a => f a

/-! ## Look-ups -/

def get? (v : Json) (key : String) : Option Json :=
  match v with
  | .object m => Table.get? m key
  | _ => none

def text? : Json → Option String
  | .text s => some s
  | _ => none

end Json
end ProjectComposer
