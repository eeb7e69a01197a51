import ProjectComposer.Graph.Cycle

/-!
Execution plans: the nodes of a graph in layers, each node in the first layer after all of its
producers. A vertex is ready once as many placed nodes lead to it as it has predecessors. Where
vertices are left over, they hold a cycle, and the plan fails with a shortest one.
-/
namespace ProjectComposer
set_option autoImplicit false

/-! ## Readiness -/

namespace Vertex

/-- How many of the placed nodes lead to a vertex. -/
def arrived (placed : List String) (v : Vertex) : Nat :=
  placed.countP v.follows

def isReady (placed : List String) (v : Vertex) : Bool :=
  v.predecessors.length ≤ v.arrived placed

end Vertex

def readyOf (placed : List String) (vs : List Vertex) : List Vertex :=
  vs.filter (Vertex.isReady placed)

def unreadyOf (placed : List String) (vs : List Vertex) : List Vertex :=
  vs.filter fun v => !v.isReady placed

theorem length_readyOf_add_unreadyOf (placed : List String) (vs : List Vertex) :
    (readyOf placed vs).length + (unreadyOf placed vs).length = vs.length := by
  have h := vs.length_eq_countP_add_countP (Vertex.isReady placed)
  simp only [List.countP_eq_length_filter, Bool.decide_eq_true, decide_not] at h
  exact h.symm

/-! ## Layers -/

def idsOf (vs : List Vertex) : List String :=
  vs.map (·.id)

/-- The layers that follow the placed nodes, out of the vertices waiting. -/
def layersFrom (placed : List String) (waiting : List Vertex) : List (List String) :=
  if readyOf placed waiting = [] then []
  else
    idsOf (readyOf placed waiting) ::
      layersFrom (placed ++ idsOf (readyOf placed waiting)) (unreadyOf placed waiting)
termination_by waiting.length
decreasing_by
  have h := length_readyOf_add_unreadyOf placed waiting
  have h' := List.length_pos_iff.mpr (by assumption)
  omega

/-! ## Plans -/

structure Plan where
  layers : List (List String)
  deriving DecidableEq, Repr

def Plan.order (p : Plan) : List String :=
  p.layers.flatten

namespace Graph

/-- The first layer holds the nodes without predecessors. -/
def layers (g : Graph) : List (List String) :=
  match idsOf (readyOf [] g.vertices) with
  | [] => []
  | first => first :: layersFrom first (unreadyOf [] (Vertex.distinct g.vertices))

def plan (g : Graph) : Except Failure Plan :=
  let p : Plan := ⟨g.layers⟩
  if p.order.length = g.vertices.length then .ok p
  else do
    let cycle ← g.shortestCycle (idsOf (unreadyOf p.order g.vertices))
    .error (.fault (.ofKind (.cycle cycle)))

end Graph
end ProjectComposer
