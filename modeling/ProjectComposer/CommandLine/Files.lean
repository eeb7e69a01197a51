import ProjectComposer.Text.Quoted
import ProjectComposer.Text.Segments

/-!
Paths, and what reading one gives. A `FileSystem` is a value: the files and directories that are
known by their ways from the root, and the directory that the program runs in. A path is followed
step by step, and the first step that cannot be made decides.
-/
namespace ProjectComposer.CommandLine
set_option autoImplicit false

/-! ## Paths -/

/-- The segments of a path that count. -/
def pathSegments (cs : List Char) : List (List Char) :=
  (Text.splitAt '/' cs).filter fun s => s ≠ [] ∧ s ≠ ['.']

/-- A path without empty segments and single dots; two slashes in front are kept, and three are
one. -/
def cleanPath (path : String) : String :=
  let root : List Char := match path.toList with
    | '/' :: '/' :: '/' :: _ => ['/']
    | '/' :: '/' :: _ => ['/', '/']
    | '/' :: _ => ['/']
    | _ => []
  let clean := root ++ Text.joinAt '/' (pathSegments path.toList)
  if clean = [] then "." else String.ofList clean

/-- The names along a path. -/
def wayOf (path : String) : List String :=
  (pathSegments path.toList).map String.ofList

/-! ## Readings -/

/-- Why a path cannot be read, other than that nothing is there. -/
inductive Obstacle
  | directory
  | throughFile
  | longName
  | zeroCharacter
  | other (text : String)
  deriving DecidableEq, Repr

def Obstacle.message (path : String) : Obstacle → String
  | .directory => "[Errno 21] Is a directory: " ++ Text.quoted path
  | .throughFile => "[Errno 20] Not a directory: " ++ Text.quoted path
  | .longName => "[Errno 36] File name too long: " ++ Text.quoted path
  | .zeroCharacter => "embedded null byte"
  | .other text => text

inductive Reading
  | text (s : String)
  | missing
  | broken (o : Obstacle)
  deriving DecidableEq, Repr

/-! ## File systems -/

structure FileSystem where
  home : List String
  directories : List (List String) := []
  files : List (List String × String) := []

namespace FileSystem

/-- The most bytes of a name and of a path. -/
def longestName : Nat := 255

def longestPath : Nat := 4095

def file? (s : FileSystem) (way : List String) : Option String :=
  (s.files.find? fun f => f.1 = way).map Prod.snd

/-- Holds of a directory, known itself or for something below it. -/
def isDirectory (s : FileSystem) (way : List String) : Bool :=
  (s.home :: s.directories ++ s.files.map Prod.fst).any way.isPrefixOf

/-- Follows names from a place; two dots lead up, though never above the root. -/
def follow (s : FileSystem) (way : List String) (names : List String) : Reading :=
  match s.file? way, names with
  | some text, [] => .text text
  | some _, _ :: _ => .broken .throughFile
  | none, names =>
    if !s.isDirectory way then .missing
    else
      match names with
      | [] => .broken .directory
      | name :: rest =>
        if longestName < name.utf8ByteSize then .broken .longName
        else s.follow (if name = ".." then way.dropLast else way ++ [name]) rest

def read (s : FileSystem) (path : String) : Reading :=
  if '\x00' ∈ path.toList then .broken .zeroCharacter
  else if longestPath < path.utf8ByteSize then .broken .longName
  else s.follow (if Text.startsWith "/" path then [] else s.home) (wayOf path)

end FileSystem
end ProjectComposer.CommandLine
