import ProjectComposer.Json.Value
import ProjectComposer.Number.Shortest
import ProjectComposer.Text.Quoted

/-!
Writing JSON. `Json.inline` writes a value on one line with a space after each comma and colon,
`Json.indented` one item per line with two spaces for each level. Both use ASCII alone: any other
character is written by its code units in UTF-16.
-/
namespace ProjectComposer.Json
set_option autoImplicit false

/-! ## Scalars -/

def unitEscape (n : Nat) : List Char :=
  '\\' :: 'u' :: Text.hexDigits 4 n

def escapeChar (c : Char) : List Char :=
  if c = '\x22' ∨ c = '\\' then ['\\', c]
  else if c = '\n' then ['\\', 'n']
  else if c = '\r' then ['\\', 'r']
  else if c = '\t' then ['\\', 't']
  else if c = '\x08' then ['\\', 'b']
  else if c = '\x0c' then ['\\', 'f']
  else if ' ' ≤ c ∧ c ≤ '~' then [c]
  else
    let n := c.toNat
    if n < 0x10000 then unitEscape n
    else
      unitEscape (0xD800 + (n - 0x10000) / 0x400) ++ unitEscape (0xDC00 + (n - 0x10000) % 0x400)

def quotedChars (s : String) : List Char :=
  '\x22' :: s.toList.flatMap escapeChar ++ ['\x22']

def intChars (i : Int) : List Char :=
  if i < 0 then '-' :: Nat.toDigits 10 i.natAbs else Nat.toDigits 10 i.natAbs

def realChars : Binary64 → List Char
  | .infinite s => if s then "-Infinity".toList else "Infinity".toList
  | .notANumber => "NaN".toList
  | x => x.text.toList

def boolChars (b : Bool) : List Char :=
  if b then "true".toList else "false".toList

/-! ## One line -/

mutual
def inlineChars : Json → List Char
  | .null => "null".toList
  | .bool b => boolChars b
  | .int i => intChars i
  | .real x => realChars x
  | .text s => quotedChars s
  | .list [] => ['[', ']']
  | .list (v :: items) => '[' :: inlineChars v ++ inlineItems items
  | .object [] => ['\x7b', '\x7d']
  | .object ((k, v) :: members) =>
    '\x7b' :: quotedChars k ++ [':', ' '] ++ inlineChars v ++ inlineMembers members

/-- The items after a first one, and the closing bracket. -/
def inlineItems : List Json → List Char
  | [] => [']']
  | v :: items => ',' :: ' ' :: inlineChars v ++ inlineItems items

/-- The members after a first one, and the closing brace. -/
def inlineMembers : List (String × Json) → List Char
  | [] => ['\x7d']
  | (k, v) :: members =>
    ',' :: ' ' :: quotedChars k ++ [':', ' '] ++ inlineChars v ++ inlineMembers members
end

def inline (v : Json) : String :=
  String.ofList v.inlineChars

/-! ## Indented -/

/-- A line feed and the indentation of a level. -/
def newLine (level : Nat) : List Char :=
  '\n' :: List.replicate (2 * level) ' '

mutual
def indentedChars (level : Nat) : Json → List Char
  | .null => "null".toList
  | .bool b => boolChars b
  | .int i => intChars i
  | .real x => realChars x
  | .text s => quotedChars s
  | .list [] => ['[', ']']
  | .list (v :: items) =>
    '[' :: newLine (level + 1) ++ indentedChars (level + 1) v ++ indentedItems level items
  | .object [] => ['\x7b', '\x7d']
  | .object ((k, v) :: members) =>
    '\x7b' :: newLine (level + 1) ++ quotedChars k ++ [':', ' '] ++ indentedChars (level + 1) v ++
      indentedMembers level members

/-- The items after a first one, and the closing bracket. -/
def indentedItems (level : Nat) : List Json → List Char
  | [] => newLine level ++ [']']
  | v :: items =>
    ',' :: newLine (level + 1) ++ indentedChars (level + 1) v ++ indentedItems level items

/-- The members after a first one, and the closing brace. -/
def indentedMembers (level : Nat) : List (String × Json) → List Char
  | [] => newLine level ++ ['\x7d']
  | (k, v) :: members =>
    ',' :: newLine (level + 1) ++ quotedChars k ++ [':', ' '] ++ indentedChars (level + 1) v ++
      indentedMembers level members
end

def indented (v : Json) : String :=
  String.ofList (v.indentedChars 0)

/-! ### Equations, so that no proof opens the recursion -/

section Indented
variable (level : Nat) (v : Json) (items : List Json) (e : String × Json)
  (members : List (String × Json))

theorem indentedChars_null : indentedChars level .null = ['n', 'u', 'l', 'l'] := rfl

theorem indentedChars_bool (b : Bool) : indentedChars level (.bool b) = boolChars b := rfl

theorem indentedChars_int (i : Int) : indentedChars level (.int i) = intChars i := rfl

theorem indentedChars_text (s : String) : indentedChars level (.text s) = quotedChars s := rfl

theorem indentedChars_list_nil : indentedChars level (.list []) = ['[', ']'] := rfl

theorem indentedChars_list_cons : indentedChars level (.list (v :: items)) =
    '[' :: newLine (level + 1) ++ indentedChars (level + 1) v ++ indentedItems level items := rfl

theorem indentedChars_object_nil : indentedChars level (.object []) = ['\x7b', '\x7d'] := rfl

theorem indentedChars_object_cons : indentedChars level (.object (e :: members)) =
    '\x7b' :: newLine (level + 1) ++ quotedChars e.1 ++ [':', ' '] ++
      indentedChars (level + 1) e.2 ++ indentedMembers level members := rfl

theorem indentedItems_nil : indentedItems level [] = newLine level ++ [']'] := rfl

theorem indentedItems_cons : indentedItems level (v :: items) =
    ',' :: newLine (level + 1) ++ indentedChars (level + 1) v ++ indentedItems level items := rfl

theorem indentedMembers_nil : indentedMembers level [] = newLine level ++ ['\x7d'] := rfl

theorem indentedMembers_cons : indentedMembers level (e :: members) =
    ',' :: newLine (level + 1) ++ quotedChars e.1 ++ [':', ' '] ++ indentedChars (level + 1) e.2 ++
      indentedMembers level members := rfl

end Indented

end ProjectComposer.Json
