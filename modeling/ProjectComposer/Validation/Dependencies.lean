import ProjectComposer.Graph.Plan
import ProjectComposer.Validation.Configs
import ProjectComposer.Validation.Structure

/-!
The dependency graph of a blueprint. A node depends on the sources of its incoming edges and on
every node of a kind that its plugin requires; optional needs bring no arcs. A required kind that
no node has is reported for the first node in order, before anything is scheduled.
-/
namespace ProjectComposer
set_option autoImplicit false

def Registry.find (r : Registry) (kind : String) : Except Failure Plugin :=
  match r.get? kind with
  | some p => .ok p
  | none => .error (.lookup (.plugin kind))

namespace Blueprint

/-! ## Arcs -/

/-- The arcs to a node from all nodes of a kind that it needs. -/
def needArcs (b : Blueprint) (n : Node) (p : Plugin) (need : Need) :
    Except Failure (List (String × String)) :=
  match b.nodes.filter fun m => m.kind = need.kind with
  | [] => .error (.fault (.ofKind (.missingDependency need.kind n.id (some p.id))))
  | producers =>
    .ok ((producers.filter fun m => m.id ≠ n.id).map fun m => (m.id, n.id))

/-- The arcs to a node from all that its plugin requires. -/
def nodeArcs (b : Blueprint) (r : Registry) (n : Node) :
    Except Failure (List (String × String)) := do
  let p ← r.find n.kind
  let arcs ← p.requiredNeeds.mapM (b.needArcs n p)
  pure arcs.flatten

def edgeArcs (b : Blueprint) : List (String × String) :=
  b.edges.map fun e => (e.source.node, e.target.node)

/-! ## Graphs -/

/-- The graph of a blueprint of valid structure. -/
def connect (b : Blueprint) (r : Registry) : Except Failure Graph := do
  let arcs ← b.nodes.mapM (b.nodeArcs r)
  let kinds := Table.ofPairs (b.nodes.map fun n => (n.id, n.kind))
  (Graph.ofNodes b.nodeIds kinds).addArcs (arcs.flatten ++ b.edgeArcs)

def graph (b : Blueprint) (r : Registry) : Except Failure Graph := do
  (b.validateStructure r).mapError .fault
  b.connect r

/-! ## Accepted blueprints -/

/-- What validation finds out about a blueprint. -/
structure Accepted where
  configs : Table Config
  graph : Graph
  plan : Plan

/-- Validates configs, structure and dependencies, in this order. -/
def validated (b : Blueprint) (r : Registry) : Except Failure Accepted := do
  let configs ← (b.validateConfigs r).mapError .fault
  let graph ← b.graph r
  let plan ← graph.plan
  pure ⟨configs, graph, plan⟩

end Blueprint
end ProjectComposer
