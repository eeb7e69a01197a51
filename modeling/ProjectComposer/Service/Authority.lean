import ProjectComposer.Number.Numeral
import ProjectComposer.Path.Normal
import ProjectComposer.Text.Quoted

/-!
Authorities of targets: a user, a host and a port. A host is a name, an address of four octets, or
an address of hexadecimal groups in square brackets; what looks like an address has to be one. A
port is an integer or left open.
-/
namespace ProjectComposer.Service
set_option autoImplicit false

/-! ## Parts -/

structure Authority where
  user : List Char := []
  host : List Char := []
  port : List Char := []
  deriving DecidableEq, Repr

namespace Authority

/-- What stands in front of the last `@`, and what stands behind it. -/
def splitUser (cs : List Char) : List Char × List Char :=
  match cs.reverse.dropWhile (· ≠ '@') with
  | [] => ([], cs)
  | _ :: user => (user.reverse, (cs.reverse.takeWhile (· ≠ '@')).reverse)

/-- Splits a host off. One in brackets goes on to the last closing bracket, and any other to the
first colon. -/
def splitHost (cs : List Char) : List Char × List Char :=
  if cs.head? = some '[' ∧ ']' ∈ cs then
    ((cs.reverse.dropWhile (· ≠ ']')).reverse, (cs.reverse.takeWhile (· ≠ ']')).reverse)
  else (cs.takeWhile (· ≠ ':'), cs.dropWhile (· ≠ ':'))

def dropColon (cs : List Char) : List Char :=
  match cs with
  | ':' :: rest => rest
  | _ => cs

def ofChars (cs : List Char) : Authority :=
  let (user, rest) := splitUser cs
  let (host, rest) := splitHost rest
  ⟨user, host, dropColon rest⟩

/-- Holds of an authority that names nothing. -/
def isEmpty (a : Authority) : Bool :=
  a.user = [] && a.host = [] && a.port = []

end Authority

/-! ## Addresses of four octets -/

/-- Holds where the text can be read as four numbers with one character of any kind between
neighbours. A run of digits gives as many numbers as digits at its odd places can be left to part
them. -/
def looksDotted (cs : List Char) : Bool :=
  let runs := Text.splitAt '.' (cs.map fun c => if Numeral.isAsciiDigit c then c else '.')
  runs.all (· ≠ []) && runs.length ≤ 4 && 4 ≤ runs.foldl (fun n r => n + (r.length + 1) / 2) 0

def isOctet (cs : List Char) : Bool :=
  cs ≠ [] && cs.all Numeral.isAsciiDigit && (cs.head? ≠ some '0' || cs = ['0']) &&
    cs.length ≤ 3 && Numeral.digitsValue cs ≤ 255

def isAddress4 (cs : List Char) : Bool :=
  let octets := Text.splitAt '.' cs
  octets.length = 4 && octets.all isOctet

/-! ## Addresses of hexadecimal groups -/

def groupCount : Nat := 8

def isGroup (cs : List Char) : Bool :=
  cs ≠ [] && cs.length ≤ 4 && cs.all fun c => (Text.hexValue? c).isSome

/-- Puts two groups in the place of four octets at the end. -/
def withoutOctets? (groups : List (List Char)) : Option (List (List Char)) :=
  match groups.getLast? with
  | none => none
  | some last =>
    if '.' ∉ last then some groups
    else if isAddress4 last then some (groups.dropLast ++ [['0'], ['0']])
    else none

/-- The groups on one side of a gap; the gap may stand at the end of the address. -/
def besideGap (groups : List (List Char)) : List (List Char) :=
  if groups = [[]] then [] else groups

/-- All groups, or fewer of them around one gap. -/
def isGrouped (groups : List (List Char)) : Bool :=
  match groups with
  | [] => false
  | first :: rest =>
    match rest.dropWhile (· ≠ []) with
    | _ :: last :: back =>
      let shown := besideGap (first :: rest.takeWhile (· ≠ [])) ++ besideGap (last :: back)
      shown.all isGroup && shown.length < groupCount
    | _ => groups.all isGroup && groups.length = groupCount

/-- A percent sign splits a zone off, which is not empty. -/
def isAddress6 (cs : List Char) : Bool :=
  let zoned : Bool :=
    match cs.dropWhile (· ≠ '%') with
    | [] => true
    | _ :: zone => zone ≠ [] && !zone.contains '%'
  zoned && (withoutOctets? (Text.splitAt ':' (cs.takeWhile (· ≠ '%')))).any isGrouped

/-! ## Names -/

/-- Runs of symbols, punctuation, accents without a letter and compatibility forms, which a name
does not hold. -/
def symbolRanges : List (Nat × Nat) :=
  [(0x80, 0xBF), (0xD7, 0xD7), (0xF7, 0xF7), (0x300, 0x36F), (0x2000, 0x214D), (0x214F, 0x2183),
   (0x2185, 0x2BFF), (0x2E00, 0x2E2E), (0x2E30, 0x3004), (0x3008, 0x3029), (0x3030, 0x303B),
   (0x303D, 0x3040), (0x3200, 0x33FF), (0xFB00, 0xFE1F), (0xFE30, 0xFFFF), (0x1D000, 0x1D7FF),
   (0x1F000, 0x1FAFF)]

/-- The scripts that run from right to left. -/
def leftwardRanges : List (Nat × Nat) :=
  [(0x590, 0x8FF), (0x10800, 0x10FFF), (0x1E800, 0x1EFFF)]

def isWithin (ranges : List (Nat × Nat)) (c : Char) : Bool :=
  ranges.any fun r => r.1 ≤ c.toNat && c.toNat ≤ r.2

def isAscii (c : Char) : Bool :=
  c.toNat < 0x80

def isNameCharacter (c : Char) : Bool :=
  if isAscii c then Numeral.isAsciiDigit c || c = '-' || Path.isAsciiLetter c
  else Text.isPrintable c && !isWithin symbolRanges c

/-- A label that runs from right to left does so from its first letter to its last. -/
def keepsDirection (cs : List Char) : Bool :=
  let leftward := isWithin leftwardRanges
  !cs.any leftward ||
    (cs.head?.any leftward && cs.all fun c => leftward c || !Path.isAsciiLetter c)

/-- The most characters of a label; one that is not of ASCII alone is sent behind four more. -/
def longestLabel : Nat := 63

/-- No hyphen stands at an end, nor two of them in the third and fourth place. -/
def isLabel (cs : List Char) : Bool :=
  cs ≠ [] && cs.head? ≠ some '-' && cs.getLast? ≠ some '-' &&
    (cs.drop 2).take 2 ≠ ['-', '-'] && cs.all isNameCharacter && keepsDirection cs &&
    cs.length + (if cs.all isAscii then 0 else 4) ≤ longestLabel

/-- A full stop of some script. -/
def isStop (c : Char) : Bool :=
  c = '.' || c = '\u3002' || c = '\uFF0E' || c = '\uFF61'

/-- Labels with stops between them; one more stop may end the name. -/
def isName (cs : List Char) : Bool :=
  let labels := Text.splitAt '.' (cs.map fun c => if isStop c then '.' else c)
  let labels := if labels.getLast? = some [] then labels.dropLast else labels
  labels ≠ [] && labels.all isLabel

/-! ## Refusals -/

/-- Why an authority cannot be addressed. -/
inductive Unaddressable
  | octets (host : String)
  | groups (host : String)
  | name (host : String)
  | port (port : String)
  deriving DecidableEq, Repr

def Unaddressable.message : Unaddressable → String
  | .octets s => "Invalid IPv4 address: " ++ Text.quoted s
  | .groups s => "Invalid IPv6 address: " ++ Text.quoted s
  | .name s => "Invalid IDNA hostname: " ++ Text.quoted s
  | .port s => "Invalid port: " ++ Text.quoted s

namespace Authority

/-- A host in brackets, without them. -/
def bracketed? (a : Authority) : Option (List Char) :=
  match a.host with
  | '[' :: rest => if rest.getLast? = some ']' then some rest.dropLast else none
  | _ => none

def badHost? (a : Authority) : Option Unaddressable :=
  let host := String.ofList a.host
  if looksDotted a.host then (if isAddress4 a.host then none else some (.octets host))
  else
    match a.bracketed? with
    | some groups => if isAddress6 groups then none else some (.groups host)
    | none =>
      if a.host.all isAscii || isName a.host then none else some (.name host)

def portNumber? (a : Authority) : Option Int :=
  Numeral.integer? (String.ofList a.port)

def badPort? (a : Authority) : Option Unaddressable :=
  if a.port = [] ∨ a.portNumber? ≠ none then none else some (.port (String.ofList a.port))

def unaddressable? (a : Authority) : Option Unaddressable :=
  a.badHost?.or a.badPort?

end Authority
end ProjectComposer.Service
