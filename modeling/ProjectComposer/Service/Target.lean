import ProjectComposer.Service.Authority

/-!
Targets of requests, and the paths that they lead to. A target with scheme and host says itself
where it leads; any other leads to the service, whatever stands in front of its path. The path
starts at the root, its dots are resolved, and its escapes are undone at both ends of the
connection, so twice.
-/
namespace ProjectComposer.Service
set_option autoImplicit false

/-! ## Parts -/

/-- What a target consists of, the fragment left out. The scheme is in small letters. -/
structure Reference where
  scheme : String := ""
  authority : Authority := {}
  path : List Char := []
  query : List Char := []
  deriving DecidableEq, Repr

def isSchemeCharacter (c : Char) : Bool :=
  Path.isAsciiLetter c || Numeral.isAsciiDigit c || c = '+' || c = '.' || c = '-'

/-- Splits a scheme off, which starts with a letter and ends with a colon. The colon may stand
alone. -/
def splitScheme (cs : List Char) : String × List Char :=
  let name := cs.takeWhile isSchemeCharacter
  match cs.dropWhile isSchemeCharacter with
  | ':' :: rest =>
    if name.head?.all Path.isAsciiLetter then
      (String.ofList (name.map Numeral.lowerAscii), rest)
    else ("", cs)
  | _ => ("", cs)

def isPathCharacter (c : Char) : Bool :=
  c ≠ '?' && c ≠ '#'

/-- Splits an authority off, which two slashes announce. -/
def splitAuthority (cs : List Char) : Authority × List Char :=
  let inside (c : Char) : Bool := c ≠ '/' && isPathCharacter c
  match cs with
  | '/' :: '/' :: rest => (.ofChars (rest.takeWhile inside), rest.dropWhile inside)
  | _ => ({}, cs)

/-- The query that a text begins with, behind its mark. -/
def queryOf (cs : List Char) : List Char :=
  match cs with
  | '?' :: rest => rest.takeWhile (· ≠ '#')
  | _ => []

namespace Reference

def ofTarget (cs : List Char) : Reference :=
  let (scheme, rest) := splitScheme cs
  let (authority, rest) := splitAuthority rest
  ⟨scheme, authority, rest.takeWhile isPathCharacter, queryOf (rest.dropWhile isPathCharacter)⟩

def isAbsolute (r : Reference) : Bool :=
  r.scheme ≠ "" && r.authority.host ≠ []

/-- Neither scheme nor authority stands in front of the path. -/
def isBare (r : Reference) : Bool :=
  r.scheme = "" && r.authority.isEmpty

end Reference

/-! ## Dots -/

/-- Puts a segment behind those in front of it, the last of them first. A single dot stays where it
is, and two dots go one segment up, though never above the root. -/
def descend (above : List (List Char)) (segment : List Char) : List (List Char) :=
  if segment = ['.'] then above
  else if segment = ['.', '.'] then (if above = [[]] then above else above.tail)
  else segment :: above

/-- Resolves the dots among the segments of a path. -/
def resolveDots (path : List Char) : List Char :=
  Text.joinAt '/' ((Text.splitAt '/' path).foldl descend []).reverse

namespace Reference

/-- The path with its dots resolved behind a scheme or an authority, and as it stands alone. -/
def ownPath (r : Reference) : List Char :=
  if r.isBare then r.path else resolveDots r.path

/-- The path from the root on. -/
def rooted (r : Reference) : List Char :=
  if r.isAbsolute then r.ownPath else resolveDots ('/' :: r.ownPath.dropWhile (· = '/'))

end Reference

/-! ## Lengths -/

def mostCharacters : Nat := 65536

/-- The length of a text with all but some characters of ASCII escaped, byte by byte. -/
def escapedLength (isPlain : Char → Bool) (cs : List Char) : Nat :=
  cs.foldl (fun n c => n + if isPlain c then 1 else 3 * c.utf8Size) 0

def isPlainInQuery (c : Char) : Bool :=
  ' ' < c && c < '\x7f' && !(['\x22', '#', '<', '>'].contains c)

def isPlainInPath (c : Char) : Bool :=
  isPlainInQuery c && !(['?', '\x60', '\x7b', '\x7d'].contains c)

/-! ## Refusals -/

/-- Why a target cannot be sent. -/
inductive Unsendable
  | tooLong
  | control (character : Char) (position : Nat)
  | unaddressable (reason : Unaddressable)
  | slashes
  | colon
  | longPart (part : String)
  deriving DecidableEq, Repr

def Unsendable.message : Unsendable → String
  | .tooLong => "URL too long"
  | .control c position =>
    "Invalid non-printable ASCII character in URL, " ++ Text.quoted (String.singleton c) ++
      " at position " ++ toString position ++ "."
  | .unaddressable reason => reason.message
  | .slashes => "Relative URLs cannot have a path starting with '//'"
  | .colon => "Relative URLs cannot have a path starting with ':'"
  | .longPart part => "URL component " ++ Text.quoted part ++ " too long"

def isControl (c : Char) : Bool :=
  c.toNat < 0x20 || c.toNat = 0x7F

namespace Reference

/-- The path of a bare reference must not begin like an authority or behind a scheme. -/
def misleading? (r : Reference) : Option Unsendable :=
  if !r.isBare then none
  else
    match r.path with
    | '/' :: '/' :: _ => some .slashes
    | ':' :: _ => some .colon
    | _ => none

/-- A part that is too long once it is escaped; an absolute reference is sent as it is. -/
def longPart? (r : Reference) : Option Unsendable :=
  if r.isAbsolute then none
  else if mostCharacters < escapedLength isPlainInPath ('/' :: r.ownPath.dropWhile (· = '/')) then
    some (.longPart "path")
  else if mostCharacters < escapedLength isPlainInQuery r.query then some (.longPart "query")
  else none

def unsendable? (r : Reference) : Option Unsendable :=
  ((r.authority.unaddressable?.map .unaddressable).or r.misleading?).or r.longPart?

end Reference

/-- The first reason that holds of a target. -/
def unsendable? (cs : List Char) : Option Unsendable :=
  if mostCharacters < cs.length then some .tooLong
  else
    match cs.find? isControl with
    | some c => some (.control c (cs.idxOf c))
    | none => (Reference.ofTarget cs).unsendable?

/-! ## Connections -/

/-- Why there is no connection to where an absolute target leads. -/
inductive Unreachable
  | scheme (name : String)
  | port (port : String)
  deriving DecidableEq, Repr

def Unreachable.message : Unreachable → String
  | .scheme name => name
  | .port s => "invalid literal for int() with base 10: " ++ Text.quoted s

/-- The port of a scheme, where no other is asked for. -/
def standardPort? (scheme : String) : Option Int :=
  match scheme with
  | "http" | "ws" => some 80
  | "https" | "wss" => some 443
  | _ => none

/-- A port that is not the standard one of a scheme, behind a colon. -/
def portSuffix (scheme : String) (port : Option Int) : String :=
  match port with
  | none => ""
  | some n => if standardPort? scheme = some n then "" else ":" ++ toString n

/-- The port is looked for behind the first colon, which in a host of groups is one of its own. -/
def Reference.unreachable? (r : Reference) : Option Unreachable :=
  if !r.isAbsolute then none
  else if standardPort? r.scheme = none then some (.scheme r.scheme)
  else
    match r.authority.bracketed? with
    | none => none
    | some groups =>
      match groups.dropWhile (· ≠ ':') with
      | [] => none
      | _ :: rest =>
        let suffix := portSuffix r.scheme r.authority.portNumber?
        some (.port (String.ofList rest ++ "]" ++ suffix))

/-! ## Escapes -/

/-- Undoes the escapes of ASCII characters; those of other bytes stay. -/
def unescape : List Char → List Char
  | '%' :: a :: b :: rest =>
    match Text.hexValue? a, Text.hexValue? b with
    | some x, some y =>
      if x < 8 then Char.ofNat (x * 16 + y) :: unescape rest else '%' :: unescape (a :: b :: rest)
    | _, _ => '%' :: unescape (a :: b :: rest)
  | c :: rest => c :: unescape rest
  | [] => []

/-! ## Paths -/

/-- The path that a target leads to. -/
def pathOf (target : String) : String :=
  String.ofList (unescape (unescape (Reference.ofTarget target.toList).rooted))

end ProjectComposer.Service
