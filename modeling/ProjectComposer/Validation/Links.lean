import ProjectComposer.Graph.Links
import ProjectComposer.Validation.Dependencies

/-!
The dependency graph of a blueprint with every arc kept at both ends, built arc by arc: first what
the plugins of the nodes require, node by node and need by need, and then the edges. A need that no
node meets ends the building where it stands.
-/
namespace ProjectComposer.Blueprint
set_option autoImplicit false

def linkNeed (b : Blueprint) (n : Node) (p : Plugin) (l : Links) (need : Need) :
    Except Failure Links := do
  l.addArcs (← b.needArcs n p need)

def linkNode (b : Blueprint) (r : Registry) (l : Links) (n : Node) : Except Failure Links := do
  let p ← r.find n.kind
  p.requiredNeeds.foldlM (b.linkNeed n p) l

def links (b : Blueprint) (r : Registry) : Except Failure Links := do
  (b.validateStructure r).mapError .fault
  let kinds := Table.ofPairs (b.nodes.map fun n => (n.id, n.kind))
  let l ← b.nodes.foldlM (b.linkNode r) (Links.ofNodes b.nodeIds kinds)
  l.addArcs b.edgeArcs

end ProjectComposer.Blueprint
