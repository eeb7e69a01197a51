import ProjectComposer.Compilation
import ProjectComposer.Service.Description

/-!
The service over HTTP: the catalogue of plugins, and validation and compilation of a blueprint in
the body of a request. Every fault is answered with status 422 and its diagnostics.
-/
namespace ProjectComposer.Service
set_option autoImplicit false
open Wire

/-- What an answer holds. The text of a page is left to who shows it. -/
inductive Content
  | json (body : Json)
  | page
  | nothing

structure Response where
  status : Nat
  content : Content

/-! ## Answers -/

def succeed (body : Json) : Response :=
  ⟨200, .json body⟩

def plain (status : Nat) (detail : Json) : Response :=
  ⟨status, .json (.object [("detail", detail)])⟩

def faulty (message : String) (f : Fault) : Response :=
  plain 422 <| .object [
    ("message", .text message),
    ("code", .text f.code),
    ("error", .text f.message),
    ("diagnostics", .list (f.diagnostics.map Diagnostic.toJson))]

/-- The issues of a body; their places start at the body. -/
def unreadable (is : Issues) : Response :=
  plain 422 (.list ((is.within (.name "body")).toList.map (Issue.toJson .request)))

def validation (b : Blueprint) : Except Failure Response := do
  match b.accept .builtIn with
  | .ok a => pure (succeed (Verdict.codec.write .camel ⟨true, a.plan.layers⟩))
  | .error (.fault f) => pure (faulty "Validation failed" f)
  | .error f => .error f

def compilation (b : Blueprint) : Except Failure Response := do
  match (b.compile .builtIn).2 with
  | .ok c => pure (succeed c.tree.toJson)
  | .error (.fault f) => pure (faulty "Compilation failed" f)
  | .error f => .error f

/-- Answers for the blueprint in a body; a missing body and `null` are alike. -/
def withBlueprint (body : Option Json) (answer : Blueprint → Except Failure Response) :
    Except Failure Response :=
  match body with
  | none | some .null => pure (unreadable ⟨⟨[], .missing, .ofJson .null⟩, []⟩)
  | some v =>
    match Blueprint.codec.read .request v with
    | .ok b => answer b
    | .error is => pure (unreadable is)

def greeting : String :=
  "dappforge blueprint compiler is running"

def answer (e : Endpoint) (body : Option Json) : Except Failure Response :=
  match e with
  | .greeting => pure (succeed (.object [("message", .text greeting)]))
  | .plugins => pure (succeed (.list (Registry.builtIn.plugins.map Plugin.describe)))
  | .validate => withBlueprint body validation
  | .compile => withBlueprint body compilation
  | .description => pure (succeed description)
  | .console | .signIn | .manual => pure ⟨200, .page⟩

def Response.withoutContent (r : Response) : Response :=
  { r with content := .nothing }

/-- The answer to HEAD has no content, whatever its status is. -/
def respond (method target : String) (body : Option Json) : Except Failure Response := do
  let r ← match endpoint? target with
    | none => pure (plain 404 (.text "Not Found"))
    | some e =>
      if method ∈ e.methods then answer e body
      else pure (plain 405 (.text "Method Not Allowed"))
  pure (if method = "HEAD" then r.withoutContent else r)

end ProjectComposer.Service
