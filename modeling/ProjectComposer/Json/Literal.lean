import ProjectComposer.Json.Value
import ProjectComposer.Number.Shortest
import ProjectComposer.Text.Quoted

/-!
Values as messages show them: texts in quotes, the words `None`, `True` and `False`, and brackets
around lists and objects. A long excerpt keeps its first 25 and its last 24 bytes, as far as whole
characters fit into them.
-/
namespace ProjectComposer.Json
set_option autoImplicit false

/-! ## Literals -/

def realLiteral : Binary64 → String
  | .infinite negative => if negative then "-inf" else "inf"
  | .notANumber => "nan"
  | x => x.text

mutual
def literal : Json → String
  | .null => "None"
  | .bool b => if b then "True" else "False"
  | .int i => toString i
  | .real x => realLiteral x
  | .text s => Text.quoted s
  | .list [] => "[]"
  | .list (v :: items) => "[" ++ literal v ++ itemLiterals items
  | .object [] => "\x7b\x7d"
  | .object ((k, v) :: members) =>
    "\x7b" ++ Text.quoted k ++ ": " ++ literal v ++ memberLiterals members

/-- The items after a first one, and the closing bracket. -/
def itemLiterals : List Json → String
  | [] => "]"
  | v :: items => ", " ++ literal v ++ itemLiterals items

/-- The members after a first one, and the closing brace. -/
def memberLiterals : List (String × Json) → String
  | [] => "\x7d"
  | (k, v) :: members =>
    ", " ++ Text.quoted k ++ ": " ++ literal v ++ memberLiterals members
end

/-- The name of the type of a value. -/
def typeName : Json → String
  | .null => "NoneType"
  | .bool _ => "bool"
  | .int _ => "int"
  | .real _ => "float"
  | .text _ => "str"
  | .list _ => "list"
  | .object _ => "dict"

/-! ## Excerpts -/

/-- The longest beginning of a text that takes no more than a number of bytes. -/
def takeBytes : Nat → List Char → List Char
  | _, [] => []
  | n, c :: rest => if c.utf8Size ≤ n then c :: takeBytes (n - c.utf8Size) rest else []

def excerpt (s : String) : String :=
  if s.utf8ByteSize ≤ 50 then s
  else
    let head := takeBytes 25 s.toList
    let tail := (takeBytes 24 s.toList.reverse).reverse
    String.ofList head ++ "..." ++ String.ofList tail

end ProjectComposer.Json
