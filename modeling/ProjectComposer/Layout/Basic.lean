import ProjectComposer.Blueprint.Basic
import ProjectComposer.Wire.Record

/-!
The layout of a generated project: which shaping parts it has and where each of them lives. A layout
is fixed once for a run from the kinds of the nodes, so a category means one directory whichever
generator wrote the file.
-/
namespace ProjectComposer
set_option autoImplicit false
open Wire

/-! ## Roots -/

/-- Directories of the three parts of a project, as configured. -/
structure Roots where
  frontend : String := "apps/web"
  backend : String := "apps/api"
  contracts : String := "contracts"
  deriving DecidableEq, Repr

structure Layout where
  nodeKinds : List String := []
  hasFrontend : Bool := false
  hasBackend : Bool := false
  hasContracts : Bool := false
  frontendPath : String := "apps/web"
  /-- Empty where the frontend does without a directory for sources. -/
  frontendSrcPath : String := "src"
  backendPath : String := "apps/api"
  backendSrcPath : String := "src"
  contractsPath : String := "contracts"
  deriving DecidableEq, Repr

namespace Layout

/-! ## Shaping kinds -/

def frontendKinds : List String := ["frontend-scaffold"]

/-- No node kind brings a backend of its own so far. -/
def backendKinds : List String := []

def contractKinds : List String :=
  ["stylus-contract", "stylus-zk-contract", "erc20-stylus", "erc721-stylus", "erc1155-stylus",
    "eip7702-smart-eoa", "erc8004-agent-runtime"]

def isFrontend (n : Node) : Bool :=
  frontendKinds.contains n.kind

/-- The layout for nodes; `usesSource` tells of the first frontend node whether its code lives in a
directory for sources. -/
def ofNodes (nodes : List Node) (roots : Roots) (usesSource : Node → Bool) : Layout :=
  let kinds := Text.sortedDistinct (nodes.map (·.kind))
  let has (shaping : List String) : Bool := kinds.any fun k => shaping.contains k
  { nodeKinds := kinds
    hasFrontend := has frontendKinds
    hasBackend := has backendKinds
    hasContracts := has contractKinds
    frontendPath := roots.frontend
    frontendSrcPath := if (nodes.find? isFrontend).all usesSource then "src" else ""
    backendPath := roots.backend
    contractsPath := roots.contracts }

/-! ## JSON form -/

def codec : Codec Layout :=
  (Codec.record "PathContext" <|
    .required (.plain "node_types") .textSet <|
    .required (.plain "has_frontend") .bool <|
    .required (.plain "has_backend") .bool <|
    .required (.plain "has_contracts") .bool <|
    .withDefault (.plain "frontend_path") .text "apps/web" <|
    .withDefault (.plain "frontend_src_path") .text "src" <|
    .withDefault (.plain "backend_path") .text "apps/api" <|
    .withDefault (.plain "backend_src_path") .text "src" <|
    .withDefault (.plain "contracts_path") .text "contracts" .done).imap
    (fun (kinds, frontend, backend, contracts, fPath, fSrc, bPath, bSrc, cPath, ()) =>
      ⟨kinds, frontend, backend, contracts, fPath, fSrc, bPath, bSrc, cPath⟩)
    (fun l => (l.nodeKinds, l.hasFrontend, l.hasBackend, l.hasContracts, l.frontendPath,
      l.frontendSrcPath, l.backendPath, l.backendSrcPath, l.contractsPath, ()))

end Layout
end ProjectComposer
