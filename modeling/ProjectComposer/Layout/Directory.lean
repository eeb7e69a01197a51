import ProjectComposer.Artifact.Category
import ProjectComposer.Layout.Basic
import ProjectComposer.Path.Normal

/-!
The directory of each category under a layout; the empty text is the root of the project. Without a
frontend its categories fall back to a library layout under `src`, and backend code goes to the
frontend's own routes and library while no backend is there.
-/
namespace ProjectComposer
set_option autoImplicit false

/-! ## Categories by part -/

/-- The part of a project that a category belongs to. -/
inductive Part
  | frontend
  | backend
  | contract
  | shared
  deriving DecidableEq, Repr

namespace Category

def part : Category → Part
  | .frontendApp | .frontendComponents | .frontendHooks | .frontendLib | .frontendTypes
  | .frontendStyles | .frontendPublic => .frontend
  | .backendRoutes | .backendServices | .backendMiddleware | .backendLib | .backendTypes => .backend
  | .contract | .contractTest | .contractSource => .contract
  | .contractScripts | .docs | .root | .sharedTypes => .shared

/-- The directory of a category inside its part. -/
def subdirectory : Category → String
  | .frontendApp => "app"
  | .frontendComponents => "components"
  | .frontendHooks => "hooks"
  | .frontendLib => "lib"
  | .frontendTypes => "types"
  | .frontendStyles => "styles"
  | .frontendPublic => "public"
  | .backendRoutes => "routes"
  | .backendServices => "services"
  | .backendMiddleware => "middleware"
  | .backendLib => "lib"
  | .backendTypes => "types"
  | .contract => ""
  | .contractTest => "tests"
  | .contractSource => ""
  | .contractScripts => "scripts"
  | .docs => "docs"
  | .root => ""
  | .sharedTypes => "shared/types"

end Category

/-! ## Directories -/

namespace Layout

def frontendRoot (l : Layout) : String :=
  Path.join [l.frontendPath, l.frontendSrcPath]

def frontendDirectory (l : Layout) (c : Category) : String :=
  if l.hasFrontend then
    if c = .frontendPublic then Path.join [l.frontendPath, "public"]
    else Path.join [l.frontendRoot, c.subdirectory]
  else Path.join ["src", c.subdirectory]

def backendDirectory (l : Layout) (c : Category) : String :=
  if l.hasBackend then Path.join [l.backendPath, l.backendSrcPath, c.subdirectory]
  else if l.hasFrontend then
    if c = .backendRoutes then Path.join [l.frontendRoot, "app", "api"]
    else Path.join [l.frontendRoot, "lib"]
  else "src/lib"

def directory (l : Layout) (c : Category) : String :=
  match c.part with
  | .frontend => l.frontendDirectory c
  | .backend => l.backendDirectory c
  | .contract => Path.join [l.contractsPath, c.subdirectory]
  | .shared => c.subdirectory

end Layout
end ProjectComposer
