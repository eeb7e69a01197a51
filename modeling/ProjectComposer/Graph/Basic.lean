import ProjectComposer.Diagnostic.Fault

/-!
Dependency graphs. The vertices are kept in the order of the blueprint, which settles every tie:
layers, neighbours and arcs are listed by it. An arc leads from a producer to a consumer and is held
by the consumer; it counts once, however often it is added.
-/
namespace ProjectComposer
set_option autoImplicit false

/-! ## Vertices -/

structure Vertex where
  id : String
  /-- The sources of all arcs to the vertex, once each. -/
  predecessors : List String := []
  deriving DecidableEq, Repr

namespace Vertex

/-- Whether an arc leads here from a node. -/
def follows (v : Vertex) (u : String) : Bool :=
  v.predecessors.contains u

def addPredecessor (v : Vertex) (u : String) : Vertex :=
  if v.follows u then v else { v with predecessors := v.predecessors ++ [u] }

@[simp] theorem id_addPredecessor (v : Vertex) (u : String) : (v.addPredecessor u).id = v.id := by
  unfold addPredecessor
  split <;> rfl

theorem mem_predecessors_addPredecessor (v : Vertex) (u x : String) :
    x ∈ (v.addPredecessor u).predecessors ↔ x = u ∨ x ∈ v.predecessors := by
  unfold addPredecessor follows
  split
  · next h =>
    have : u ∈ v.predecessors := by simpa using h
    constructor
    · exact Or.inr
    · rintro (rfl | h') <;> assumption
  · simp [or_comm]

/-- The vertices once for each id, at its last place. -/
def distinct : List Vertex → List Vertex
  | [] => []
  | v :: rest => if rest.any fun w => w.id = v.id then distinct rest else v :: distinct rest

end Vertex

/-! ## Graphs -/

structure Graph where
  vertices : List Vertex
  /-- The kind of every node. -/
  kinds : Table String := []
  deriving DecidableEq, Repr

namespace Graph

/-- The graph of nodes without arcs. -/
def ofNodes (nodes : List String) (kinds : Table String := []) : Graph :=
  ⟨nodes.map fun id => { id := id }, kinds⟩

def nodes (g : Graph) : List String :=
  g.vertices.map (·.id)

/-- Where one of the nodes is unknown, the first such node is reported. -/
def addArc (g : Graph) (u v : String) : Except Failure Graph :=
  if u ∉ g.nodes then .error (.lookup (.node u))
  else if v ∉ g.nodes then .error (.lookup (.node v))
  else
    .ok { g with vertices := g.vertices.map fun w => if w.id = v then w.addPredecessor u else w }

/-- Adds arcs from left to right. -/
def addArcs (g : Graph) (arcs : List (String × String)) : Except Failure Graph :=
  arcs.foldlM (fun g a => g.addArc a.1 a.2) g

/-! ## Neighbours -/

def successors (g : Graph) (u : String) : List String :=
  (g.vertices.filter fun v => v.follows u).map (·.id)

def predecessors (g : Graph) (v : String) : List String :=
  match g.vertices.find? fun w => w.id = v with
  | some w => w.predecessors
  | none => []

/-- The arcs by the place of their source and then of their target. -/
def sortedArcs (g : Graph) : List (String × String) :=
  let vs := Vertex.distinct g.vertices
  vs.flatMap fun u => (vs.filter fun v => v.follows u.id).map fun v => (u.id, v.id)

end Graph
end ProjectComposer
