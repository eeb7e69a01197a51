import ProjectComposer.Json.Literal

/-!
What may be wrong with a value that is read, and where. An `Issue` is a `Problem` at a location, the
path of names and positions that leads to the value, with an excerpt of what was found there. A
`Rejection` lists the issues of one value in the order of its fields, depth first; there is at least
one.

Containers are named differently by where the value comes from: values already in memory, a document
still in JSON, or the body of a request.
-/
namespace ProjectComposer.Wire
set_option autoImplicit false

/-! ## Places -/

inductive Step
  | name (s : String)
  | index (i : Nat)
  deriving DecidableEq, Repr

abbrev Location := List Step

def Step.text : Step → String
  | .name s => s
  | .index i => toString i

/-- A location as a dotted path; the empty path is the value itself. -/
def Location.dotted (l : Location) : String :=
  ".".intercalate (l.map Step.text)

/-! ## Problems -/

inductive Problem
  | missing
  | notText
  | textTooShort (least : Nat)
  | textTooLong (most : Nat)
  | textPattern (pattern : String)
  | notBool
  | boolText
  | notInt
  | intText
  | intFraction
  | intSize
  | intInfinite
  | notAbove (bound : Int)
  | notAtLeast (bound : Int)
  | notAtMost (bound : Int)
  | notNumber
  | numberText
  | notList
  | listTooShort (least actual : Nat)
  | listTooLong (most actual : Nat)
  | notTuple
  | notSet
  | notMap
  | notRecord (record : String)
  | notOneOf (names : List String)
  | notJson
  deriving DecidableEq, Repr

/-- What was found in the place of a value. -/
structure Found where
  excerpt : String
  type : String
  deriving DecidableEq, Repr

def Found.ofJson (v : Json) : Found :=
  ⟨Json.excerpt v.literal, v.typeName⟩

structure Issue where
  location : Location
  problem : Problem
  found : Found
  deriving DecidableEq, Repr

def Issue.within (s : Step) (i : Issue) : Issue :=
  { i with location := s :: i.location }

/-- One issue or more. -/
structure Issues where
  first : Issue
  more : List Issue := []
  deriving DecidableEq, Repr

namespace Issues

def toList (is : Issues) : List Issue :=
  is.first :: is.more

def append (is js : Issues) : Issues :=
  ⟨is.first, is.more ++ js.toList⟩

def within (s : Step) (is : Issues) : Issues :=
  ⟨is.first.within s, is.more.map (Issue.within s)⟩

end Issues

/-! ## Wording -/

inductive Source
  | memory
  | document
  | request
  deriving DecidableEq, Repr

def counted (n : Nat) (noun : String) : String :=
  toString n ++ " " ++ noun ++ (if n = 1 then "" else "s")

def singleQuoted (s : String) : String :=
  "'" ++ s ++ "'"

/-- Quoted names with commas between them and "or" before the last. -/
def alternatives : List String → String
  | [] => ""
  | [s] => singleQuoted s
  | [s, t] => singleQuoted s ++ " or " ++ singleQuoted t
  | s :: more => singleQuoted s ++ ", " ++ alternatives more

def Problem.kind (source : Source) : Problem → String
  | .missing => "missing"
  | .notText => "string_type"
  | .textTooShort _ => "string_too_short"
  | .textTooLong _ => "string_too_long"
  | .textPattern _ => "string_pattern_mismatch"
  | .notBool => "bool_type"
  | .boolText => "bool_parsing"
  | .notInt => "int_type"
  | .intText => "int_parsing"
  | .intFraction => "int_from_float"
  | .intSize => "int_parsing_size"
  | .intInfinite => "finite_number"
  | .notAbove _ => "greater_than"
  | .notAtLeast _ => "greater_than_equal"
  | .notAtMost _ => "less_than_equal"
  | .notNumber => "float_type"
  | .numberText => "float_parsing"
  | .notList => "list_type"
  | .listTooShort .. => "too_short"
  | .listTooLong .. => "too_long"
  | .notTuple => "tuple_type"
  | .notSet => "frozen_set_type"
  | .notMap => "dict_type"
  | .notRecord _ => if source = .request then "model_attributes_type" else "model_type"
  | .notOneOf _ => "literal_error"
  | .notJson => "json_invalid"

/-- Asks for a container, called by its name in documents or in memory. -/
def container (source : Source) (inDocument inMemory : String) : String :=
  "Input should be " ++ (if source = .document then inDocument else inMemory)

def Problem.message (source : Source) : Problem → String
  | .missing => "Field required"
  | .notText => "Input should be a valid string"
  | .textTooShort n => "String should have at least " ++ counted n "character"
  | .textTooLong n => "String should have at most " ++ counted n "character"
  | .textPattern p => "String should match pattern " ++ singleQuoted p
  | .notBool => "Input should be a valid boolean"
  | .boolText => "Input should be a valid boolean, unable to interpret input"
  | .notInt => "Input should be a valid integer"
  | .intText => "Input should be a valid integer, unable to parse string as an integer"
  | .intFraction => "Input should be a valid integer, got a number with a fractional part"
  | .intSize => "Unable to parse input string as an integer, exceeded maximum size"
  | .intInfinite => "Input should be a finite number"
  | .notAbove n => "Input should be greater than " ++ toString n
  | .notAtLeast n => "Input should be greater than or equal to " ++ toString n
  | .notAtMost n => "Input should be less than or equal to " ++ toString n
  | .notNumber => "Input should be a valid number"
  | .numberText => "Input should be a valid number, unable to parse string as a number"
  | .notList => container source "a valid array" "a valid list"
  | .listTooShort least actual =>
    "List should have at least " ++ counted least "item" ++ " after validation, not " ++
      toString actual
  | .listTooLong most actual =>
    "List should have at most " ++ counted most "item" ++ " after validation, not " ++
      toString actual
  | .notTuple => container source "a valid array" "a valid tuple"
  | .notSet => container source "a valid array" "a valid frozenset"
  | .notMap => container source "an object" "a valid dictionary"
  | .notRecord record =>
    match source with
    | .memory => "Input should be a valid dictionary or instance of " ++ record
    | .document => "Input should be an object"
    | .request => "Input should be a valid dictionary or object to extract fields from"
  | .notOneOf names => "Input should be " ++ alternatives names
  | .notJson => "Invalid JSON"

/-! ## Issues as values -/

def Step.toJson : Step → Json
  | .name s => .text s
  | .index i => .int i

/-- An issue with its kind, place and message. -/
def Issue.toJson (source : Source) (i : Issue) : Json :=
  .object [
    ("type", .text (i.problem.kind source)),
    ("loc", .list (i.location.map Step.toJson)),
    ("msg", .text (i.problem.message source))]

/-! ## Rejections -/

structure Rejection where
  record : String
  source : Source := .memory
  issues : Issues
  deriving DecidableEq, Repr

/-- The first line of the text of a rejection. -/
def Rejection.message (r : Rejection) : String :=
  counted r.issues.toList.length "validation error" ++ " for " ++ r.record

/-- A step of a location; names with a dot are set apart. -/
def Step.marked : Step → String
  | .name s => if '.' ∈ s.toList then "`" ++ s ++ "`" else s
  | .index i => toString i

/-- The line of a location; the whole value has none. -/
def Location.line (l : Location) : String :=
  if l = [] then "" else ".".intercalate (l.map Step.marked) ++ "\n"

/-- The site that explains the problems, and its edition. -/
def explanationSite : String := "errors.pydantic.dev"

def explanationEdition : String := "2.14"

/-- The address of the explanation of a kind of problem. -/
def explanation (kind : String) : String :=
  "https://" ++ "/".intercalate [explanationSite, explanationEdition, "v", kind]

def Issue.text (source : Source) (i : Issue) : String :=
  let kind := i.problem.kind source
  i.location.line ++ "  " ++ i.problem.message source ++ " [type=" ++ kind ++ ", input_value=" ++
    i.found.excerpt ++ ", input_type=" ++ i.found.type ++ "]\n    For further information visit " ++
    explanation kind

/-- The message with all issues, each with what was found in its place. -/
def Rejection.text (r : Rejection) : String :=
  "\n".intercalate (r.message :: r.issues.toList.map (Issue.text r.source))

end ProjectComposer.Wire
