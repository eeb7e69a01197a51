import ProjectComposer.Json.Value
import ProjectComposer.Number.Numeral
import ProjectComposer.Text.Segments

/-!
Blueprints: the nodes of an application to generate, the edges that wire output ports to input
ports, and the settings of the project. Node ids need not be distinct here; `Wiring` checks that.
-/
namespace ProjectComposer
set_option autoImplicit false

/-! ## Nodes and edges -/

/-- Where a node stands on the canvas; no stage reads it. -/
structure Position where
  x : Binary64
  y : Binary64
  deriving DecidableEq, Repr

structure Node where
  id : String
  kind : String
  config : Json.Object
  position : Option Position := none

/-- One end of an edge. -/
structure Endpoint where
  node : String
  port : String
  deriving DecidableEq, Repr

structure Edge where
  id : String
  source : Endpoint
  target : Endpoint
  deriving DecidableEq, Repr

/-! ## Settings -/

inductive License
  | mit
  | apache2
  | gpl3
  | unlicensed
  deriving DecidableEq, Repr

structure Project where
  name : String
  description : Option String := none
  version : String := "0.1.0"
  author : Option String := none
  license : License := .mit
  keywords : List String := []
  deriving DecidableEq, Repr

structure Network where
  chainId : Int
  name : String
  rpcUrl : Option String := none
  explorerUrl : Option String := none
  isTestnet : Bool := false
  deriving DecidableEq, Repr

/-- Whether the chain id can be written out. -/
def Network.isWritable (n : Network) : Bool :=
  Numeral.isWritable n.chainId

structure Settings where
  project : Project
  network : Option Network := none
  generateDocs : Bool := true
  deriving DecidableEq, Repr

def Settings.isWritable (s : Settings) : Bool :=
  s.network.all Network.isWritable

/-! ## Blueprints -/

structure Blueprint where
  id : String
  nodes : List Node := []
  edges : List Edge := []
  settings : Option Settings := none

namespace Blueprint

def fallbackName : String := "generated-app"

/-- The name of a project after the id of its blueprint. -/
def defaultName (b : Blueprint) : String :=
  let name := Text.take 100 b.id
  if name = "" then fallbackName else name

/-- The settings of a blueprint, or defaults with a project named after the blueprint. -/
def resolvedSettings (b : Blueprint) : Settings :=
  match b.settings with
  | some s => s
  | none => { project := { name := b.defaultName } }

/-- The first position of every node id. -/
def nodeIndexFrom (i : Nat) (seen : Table Nat) : List Node → Table Nat
  | [] => seen
  | n :: rest => nodeIndexFrom (i + 1) (if seen.has n.id then seen else seen.put n.id i) rest

def nodeIndex (b : Blueprint) : Table Nat :=
  nodeIndexFrom 0 [] b.nodes

/-- The last node with an id. -/
def node? (b : Blueprint) (id : String) : Option Node :=
  b.nodes.reverse.find? fun n => n.id = id

def nodeIds (b : Blueprint) : List String :=
  b.nodes.map (·.id)

end Blueprint
end ProjectComposer
