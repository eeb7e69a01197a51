import ProjectComposer.Wire.Codec

/-!
Categories of generated files. A category names a place in the project; `Layout` decides which
directory that is.
-/
namespace ProjectComposer
set_option autoImplicit false

inductive Category
  | frontendApp
  | frontendComponents
  | frontendHooks
  | frontendLib
  | frontendTypes
  | frontendStyles
  | frontendPublic
  | backendRoutes
  | backendServices
  | backendMiddleware
  | backendLib
  | backendTypes
  | contract
  | contractTest
  | contractSource
  | contractScripts
  | docs
  | root
  | sharedTypes
  deriving DecidableEq, Repr

instance : Wire.Named Category where
  all := [.frontendApp, .frontendComponents, .frontendHooks, .frontendLib, .frontendTypes,
    .frontendStyles, .frontendPublic, .backendRoutes, .backendServices, .backendMiddleware,
    .backendLib, .backendTypes, .contract, .contractTest, .contractSource, .contractScripts, .docs,
    .root, .sharedTypes]
  name
    | .frontendApp => "frontend-app"
    | .frontendComponents => "frontend-components"
    | .frontendHooks => "frontend-hooks"
    | .frontendLib => "frontend-lib"
    | .frontendTypes => "frontend-types"
    | .frontendStyles => "frontend-styles"
    | .frontendPublic => "frontend-public"
    | .backendRoutes => "backend-routes"
    | .backendServices => "backend-services"
    | .backendMiddleware => "backend-middleware"
    | .backendLib => "backend-lib"
    | .backendTypes => "backend-types"
    | .contract => "contract"
    | .contractTest => "contract-test"
    | .contractSource => "contract-source"
    | .contractScripts => "contract-scripts"
    | .docs => "docs"
    | .root => "root"
    | .sharedTypes => "shared-types"

end ProjectComposer
