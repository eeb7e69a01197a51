import ProjectComposer.Text.Segments

/-!
Globs. A pattern is cut into tokens from the left: `**/` stands for nothing or for directories with
their final slash, `**` for any text, `*` for any text in one segment, `?` for one character of a
segment, and any other character for itself. The first two do not pass a line feed. A path matches
when it is a sequence of pieces, one for each token; one line feed may be left at its end.
-/
namespace ProjectComposer.Path
set_option autoImplicit false

inductive GlobToken
  | directories
  | anything
  | within
  | one
  | literal (c : Char)
  deriving DecidableEq, Repr

/-- Cuts a pattern into tokens, the longest wildcard first. -/
def globTokens : List Char → List GlobToken
  | '*' :: '*' :: '/' :: rest => .directories :: globTokens rest
  | '*' :: '*' :: rest => .anything :: globTokens rest
  | '*' :: rest => .within :: globTokens rest
  | '?' :: rest => .one :: globTokens rest
  | c :: rest => .literal c :: globTokens rest
  | [] => []

/-! ## Matching -/

/-- Some split into a text of `p` and a rest that `next` accepts. -/
def spanning (p : Char → Bool) (next : List Char → Bool) : List Char → Bool
  | [] => next []
  | c :: rest => next (c :: rest) || (p c && spanning p next rest)

/-- A rest that `next` accepts, after some text of `p` and a slash. -/
def pastSlash (p : Char → Bool) (next : List Char → Bool) : List Char → Bool
  | [] => false
  | c :: rest => (c = '/' && next rest) || (p c && pastSlash p next rest)

/-- Some split into a piece of the token and a rest that `next` accepts. -/
def GlobToken.eat (t : GlobToken) (next : List Char → Bool) (cs : List Char) : Bool :=
  match t with
  | .directories => next cs || pastSlash (· ≠ '\n') next cs
  | .anything => spanning (· ≠ '\n') next cs
  | .within => spanning (· ≠ '/') next cs
  | .one =>
    match cs with
    | [] => false
    | c :: rest => c ≠ '/' && next rest
  | .literal d =>
    match cs with
    | [] => false
    | c :: rest => c = d && next rest

def matchTokens : List GlobToken → List Char → Bool
  | [], cs => cs = [] || cs = ['\n']
  | t :: rest, cs => t.eat (matchTokens rest) cs

def matchGlob (path pattern : String) : Bool :=
  matchTokens (globTokens pattern.toList) (Text.forwardSlashes path.toList)

/-! ## Literal directories -/

def isWild (segment : List Char) : Bool :=
  segment.any fun c => c = '*' || c = '?'

/-- The segments of a pattern in front of its first wild one, the last segment not counted. -/
def literalDirectory (pattern : String) : List Char :=
  Text.joinAt '/' (((Text.splitAt '/' pattern.toList).dropLast).takeWhile fun s => !isWild s)

end ProjectComposer.Path
