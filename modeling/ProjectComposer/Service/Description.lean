import ProjectComposer.Blueprint.Codec
import ProjectComposer.Service.Endpoint

/-!
The description that the service gives of itself: the operations at its paths, and the records that
their bodies consist of. A record is described once, by its codec, and referred to by its title.
-/
namespace ProjectComposer.Service
set_option autoImplicit false
open Wire

/-! ## Answers with a record of their own -/

/-- The answer for a blueprint that is in order. -/
structure Verdict where
  valid : Bool
  layers : List (List String)

def Verdict.codec : Codec Verdict :=
  (Codec.record "ValidateResponse" <|
    .required (.plain "valid") .bool <|
    .required (.plain "layers") (.list (.list .text)) .done).imap
    (fun (valid, layers, ()) => ⟨valid, layers⟩) (fun v => (v.valid, v.layers, ()))

/-! ## Records -/

def withTitle (title : String) (description : Json.Object) : Json :=
  .object (description ++ [("title", .text title)])

def ofType (name : String) : Json.Object :=
  [("type", .text name)]

/-- How an issue of a body is described. -/
def issueDescription : Json.Object :=
  let step := Json.list [.object (ofType "string"), .object (ofType "integer")]
  let steps := [("items", Json.object [("anyOf", step)]), ("type", .text "array")]
  [("properties", .object [
      ("loc", withTitle "Location" steps),
      ("msg", withTitle "Message" (ofType "string")),
      ("type", withTitle "Error Type" (ofType "string")),
      ("input", withTitle "Input" []),
      ("ctx", withTitle "Context" (ofType "object"))]),
    ("title", .text "ValidationError"), ("type", .text "object"),
    ("required", Json.texts ["loc", "msg", "type"])]

def issueCodec : Codec Json :=
  { Codec.any with describe := issueDescription }

/-- The answer for a body that is no blueprint. -/
def issuesCodec : Codec (List Json × Unit) :=
  .record "HTTPValidationError" (.withFresh (.plain "detail") (.list issueCodec.elsewhere) [] .done)

/-- A member of a description: bounds are written as real numbers, and `null` as a default is left
out. -/
def sharedMember? (e : String × Json) : Option (String × Json) :=
  match e with
  | (_, .null) => none
  | ("exclusiveMinimum", .int i) => some ("exclusiveMinimum", .real (.ofInt i))
  | _ => some e

def sharedProperty (e : String × Json) : String × Json :=
  match e with
  | (key, .object m) => (key, .object (m.filterMap sharedMember?))
  | _ => e

/-- The description of a record among those of the service. -/
def shared {α : Type} (c : Codec α) : String × Json :=
  (c.title, .object <| c.describe.map fun
    | ("properties", .object m) => ("properties", .object (m.map sharedProperty))
    | e => e)

def records : Json.Object :=
  [shared Blueprint.codec, shared Settings.codec, shared Edge.codec, shared Node.codec,
    shared Endpoint.codec, shared issuesCodec, shared Network.codec, shared Position.codec,
    shared Project.codec, shared Verdict.codec, shared issueCodec]

/-! ## Operations -/

/-- What is said about the operation at an endpoint. -/
structure Operation where
  endpoint : Endpoint
  name : String
  tags : List String
  note : String := ""
  takesBlueprint : Bool := false
  answer : Json.Object := []

def operations : List Operation :=
  [{ endpoint := .plugins
     name := "list_plugins"
     tags := ["plugins"]
     note := "List every registered plugin with its ports and dependencies."
     answer := (Codec.list Codec.object).describe },
   { endpoint := .validate
     name := "validate_blueprint_endpoint"
     tags := ["blueprints"]
     note := "Validate a blueprint without running any plugin.\n" ++
       "Returns the execution layers or diagnostics."
     takesBlueprint := true
     answer := Verdict.codec.elsewhere.describe },
   { endpoint := .compile
     name := "compile_blueprint_endpoint"
     tags := ["blueprints"]
     note := "Compile a blueprint into a project tree.\n" ++
       "Returns the ProjectTree JSON or diagnostics."
     takesBlueprint := true
     answer := Codec.object.describe },
   { endpoint := .greeting
     name := "read_root"
     tags := [] }]

/-- A text with the separators between its words replaced by spaces, each word with a capital. -/
def spaced (s : String) : String :=
  String.ofList ((titleFrom false s.toList).map fun c => if c = '_' then ' ' else c)

namespace Operation

def method (o : Operation) : String :=
  (o.endpoint.methods.headD "").toLower

/-- Name, path and method, with underscores in the place of slashes. -/
def id (o : Operation) : String :=
  let place := (o.name ++ o.endpoint.path).toList.map fun c => if c = '/' then '_' else c
  String.ofList place ++ "_" ++ o.method

/-- The title of an answer that has no record of its own. -/
def answerSchema (o : Operation) : Json :=
  if o.answer = [] ∨ Codec.isElsewhere o.answer then .object o.answer
  else withTitle (spaced ("response_" ++ o.id)) o.answer

end Operation

def contentOf (schema : Json) : Json :=
  .object [("application/json", .object [("schema", schema)])]

def outcome (note : String) (schema : Json) : Json :=
  .object [("description", .text note), ("content", contentOf schema)]

def Operation.describe (o : Operation) : Json :=
  let success := ("200", outcome "Successful Response" o.answerSchema)
  let refusal := ("422", outcome "Validation Error" (.object issuesCodec.elsewhere.describe))
  let note := if o.note = "" then [] else [("description", Json.text o.note)]
  let body :=
    [("content", contentOf (.object Blueprint.codec.elsewhere.describe)),
      ("required", Json.bool true)]
  .object <|
    [("tags", Json.texts ("blueprint-compiler" :: o.tags)), ("summary", .text (spaced o.name)),
      ("operationId", .text o.id)] ++ note ++
    (if o.takesBlueprint then
      [("requestBody", .object body), ("responses", .object [success, refusal])]
    else [("responses", .object [success])])

/-! ## The service -/

def description : Json :=
  .object [
    ("openapi", .text "3.1.0"),
    ("info", .object [
      ("title", .text "dappforge"),
      ("description", .text <| "dappforge compiles a graph of typed blueprint nodes into the " ++
        "source tree of a generated Web3 application."),
      ("version", .text "0.1.0")]),
    ("paths", .object (operations.map fun o =>
      (o.endpoint.path, .object [(o.method, o.describe)]))),
    ("components", .object [("schemas", .object records)])]

end ProjectComposer.Service
