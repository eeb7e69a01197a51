import ProjectComposer.Text.Blank
import ProjectComposer.Text.Segments

/-!
Normal paths: relative paths of one or more segments with slashes between them, none of them empty,
`.` or `..`. `Path.normalize` turns backslashes into slashes, trims blanks and removes what segments
of dots stand for; a path that is empty, absolute or leads out of its root is refused.
-/
namespace ProjectComposer.Path
set_option autoImplicit false

/-! ## Refusals -/

inductive Refusal
  /-- Empty, or at the root of a file system or a drive. -/
  | absolute (path : String)
  /-- The root itself or something outside it. -/
  | outside (path : String)
  deriving DecidableEq, Repr

def Refusal.message : Refusal → String
  | .absolute p => "Generated path '" ++ p ++ "' must be relative to the project root"
  | .outside p => "Generated path '" ++ p ++ "' escapes the project root"

/-! ## Segments -/

abbrev Segment := List Char

def dot : Segment := ['.']

def dotDot : Segment := ['.', '.']

/-- Takes one segment into account. The stack holds the segments kept so far, last first; `..`
removes the last one, and stays where there is none to remove. -/
def push (stack : List Segment) (s : Segment) : List Segment :=
  if s = [] ∨ s = dot then stack
  else if s = dotDot then
    match stack with
    | [] => [dotDot]
    | top :: rest => if top = dotDot then dotDot :: stack else rest
  else s :: stack

/-- The segments of a relative path once dots are resolved; `..` is left only in front. -/
def collapse (segments : List Segment) : List Segment :=
  (segments.foldl push []).reverse

/-! ## Normalization -/

def isAsciiLetter (c : Char) : Bool :=
  ('a' ≤ c && c ≤ 'z') || ('A' ≤ c && c ≤ 'Z')

/-- Starts at the root of a file system or of a drive. -/
def isAbsolute (cs : List Char) : Bool :=
  match cs with
  | '/' :: _ => true
  | c :: ':' :: '/' :: _ => isAsciiLetter c
  | _ => false

/-- The text that is normalized: slashes alone, and no blanks around. -/
def cleaned (path : String) : List Char :=
  Text.trimBy Text.isBlank (Text.forwardSlashes path.toList)

def normalize (path : String) : Except Refusal String :=
  let cs := cleaned path
  if cs = [] ∨ isAbsolute cs then .error (.absolute path)
  else
    match collapse (Text.splitAt '/' cs) with
    | [] => .error (.outside path)
    | s :: rest =>
      if s = dotDot then .error (.outside path)
      else .ok (String.ofList (Text.joinAt '/' (s :: rest)))

/-! ## Joining -/

def trimSlashes (cs : List Char) : List Char :=
  Text.trimBy (· = '/') cs

/-- The parts with outer slashes removed and one slash between them; empty parts are left out. -/
def join (parts : List String) : String :=
  let kept := (parts.map fun p => trimSlashes p.toList).filter fun p => !p.isEmpty
  String.ofList (Text.joinAt '/' kept)

end ProjectComposer.Path
