/-!
Texts cut at a separating character. `splitAt sep` gives the pieces between the separators, so a
text with n separators has n + 1 pieces, and joining the pieces with the separator gives it back.
-/
namespace ProjectComposer.Text
set_option autoImplicit false

/-! ## Cutting and joining -/

def splitAt (sep : Char) : List Char → List (List Char)
  | [] => [[]]
  | c :: rest =>
    if c = sep then [] :: splitAt sep rest
    else
      match splitAt sep rest with
      | [] => [[c]]
      | piece :: more => (c :: piece) :: more

def joinAt (sep : Char) (pieces : List (List Char)) : List Char :=
  List.intercalate [sep] pieces

theorem splitAt_ne_nil (sep : Char) (cs : List Char) : splitAt sep cs ≠ [] := by
  cases cs with
  | nil => simp [splitAt]
  | cons c rest =>
    unfold splitAt
    split
    · simp
    · split <;> simp

/-- The texts of a list with `sep` between neighbours. -/
def joinTexts (sep : String) : List String → String
  | [] => ""
  | [s] => s
  | s :: more => s ++ sep ++ joinTexts sep more

/-- One text per line, each ended by a line feed. -/
def lines : List String → String
  | [] => ""
  | s :: more => s ++ "\n" ++ lines more

/-! ## Beginnings and ends -/

def startsWith (start s : String) : Bool :=
  start.toList.isPrefixOf s.toList

def endsWith (tail s : String) : Bool :=
  tail.toList.isSuffixOf s.toList

/-- The text without `start`, where it begins so. -/
def dropStart (start s : String) : String :=
  if startsWith start s then String.ofList (s.toList.drop start.toList.length) else s

/-- The first `n` code points. -/
def take (n : Nat) (s : String) : String :=
  String.ofList (s.toList.take n)

/-! ## Slashes -/

/-- Backslashes read as slashes. -/
def forwardSlashes (cs : List Char) : List Char :=
  cs.map fun c => if c = '\\' then '/' else c

end ProjectComposer.Text
