import ProjectComposer.Service.Target

/-!
Endpoints of the service: each has a path and the methods that it answers. A path that differs from
an endpoint by its final slash alone leads to the endpoint as well.
-/
namespace ProjectComposer.Service
set_option autoImplicit false

/-- What the service answers: blueprints and plugins, its own description, and the pages that show
this description to people or take them back from signing in. -/
inductive Endpoint
  | greeting
  | plugins
  | validate
  | compile
  | description
  | console
  | signIn
  | manual
  deriving DecidableEq, Repr

namespace Endpoint

def path : Endpoint → String
  | .greeting => "/api/"
  | .plugins => "/api/v1/plugins"
  | .validate => "/api/v1/blueprints/validate"
  | .compile => "/api/v1/blueprints/compile"
  | .description => "/openapi.json"
  | .console => "/docs"
  | .signIn => "/docs/oauth2-redirect"
  | .manual => "/redoc"

def methods : Endpoint → List String
  | .greeting | .plugins => ["GET"]
  | .validate | .compile => ["POST"]
  | .description | .console | .signIn | .manual => ["GET", "HEAD"]

def all : List Endpoint :=
  [.greeting, .plugins, .validate, .compile, .description, .console, .signIn, .manual]

/-- The endpoint at a path; a line feed may end the path. -/
def at? (path : String) : Option Endpoint :=
  all.find? fun e => e.path = path ∨ e.path ++ "\n" = path

end Endpoint

/-- The path without its final slashes, or with one where there is none. -/
def otherSlash (path : String) : String :=
  if Text.endsWith "/" path then String.ofList (Text.dropEndWhile (· = '/') path.toList)
  else path ++ "/"

def endpoint? (target : String) : Option Endpoint :=
  let path := pathOf target
  (Endpoint.at? path).or (if path = "/" then none else Endpoint.at? (otherSlash path))

end ProjectComposer.Service
