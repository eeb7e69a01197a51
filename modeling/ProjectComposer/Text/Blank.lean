/-!
White space. Two classes are in use: `isSpace` is the Unicode property White_Space, and `isBlank`
adds the four information separators U+001C to U+001F. Names and paths are trimmed of blanks,
numerals of spaces. `words` cuts a text into its maximal runs of non-blank characters.
-/
namespace ProjectComposer.Text
set_option autoImplicit false

/-! ## Classes -/

def isSpace (c : Char) : Bool :=
  let n := c.toNat
  (9 ≤ n && n ≤ 13) || n == 0x20 || n == 0x85 || n == 0xA0 || n == 0x1680 ||
    (0x2000 ≤ n && n ≤ 0x200A) || n == 0x2028 || n == 0x2029 || n == 0x202F || n == 0x205F ||
    n == 0x3000

def isBlank (c : Char) : Bool :=
  isSpace c || (0x1C ≤ c.toNat && c.toNat ≤ 0x1F)

theorem isBlank_of_isSpace {c : Char} (h : isSpace c = true) : isBlank c = true := by
  simp [isBlank, h]

/-! ## Trimming -/

def dropEndWhile (p : Char → Bool) (cs : List Char) : List Char :=
  (cs.reverse.dropWhile p).reverse

def trimBy (p : Char → Bool) (cs : List Char) : List Char :=
  dropEndWhile p (cs.dropWhile p)

def strip (s : String) : String :=
  String.ofList (trimBy isBlank s.toList)

@[simp] theorem trimBy_nil (p : Char → Bool) : trimBy p [] = [] := rfl

@[simp] theorem toList_strip (s : String) : (strip s).toList = trimBy isBlank s.toList := by
  simp [strip]

/-- Holds of a text that shows nothing when it is printed. -/
def isBlankText (s : String) : Bool :=
  s.toList.all isBlank

/-! ## Words -/

/-- Collects the words of a text from the left; `word` is the word being read, reversed. -/
def wordsFrom (word : List Char) : List Char → List (List Char)
  | [] => if word.isEmpty then [] else [word.reverse]
  | c :: rest =>
    if isBlank c then
      if word.isEmpty then wordsFrom [] rest else word.reverse :: wordsFrom [] rest
    else wordsFrom (c :: word) rest

def words (cs : List Char) : List (List Char) :=
  wordsFrom [] cs

/-- The words of a text joined by single dashes. -/
def dashed (cs : List Char) : List Char :=
  List.intercalate ['-'] (words cs)

end ProjectComposer.Text
