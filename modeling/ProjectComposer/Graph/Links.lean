import Mathlib.Data.Prod.Lex
import ProjectComposer.Graph.Plan
import ProjectComposer.Graph.Queue

/-!
Graphs that keep every arc twice: one table holds the targets of each node, the other the sources.
Both are sets, so their members stand in no particular order and are sorted by their places in the
list of nodes where the order matters. A plan counts down, for every node, the arcs to it that
come from nodes in no layer yet; whoever is counted down to zero makes up the next layer. No look-up
shows that it finds something, and the loop does not show that it ends.
-/
namespace ProjectComposer
set_option autoImplicit false

/-! ## Look-ups -/

namespace Table
variable {α : Type}

/-- What stands under a node. -/
def entry (t : Table α) (id : String) : Except Failure α :=
  match t.get? id with
  | some a => .ok a
  | none => .error (.lookup (.node id))

/-- Puts a text into the set under a node. -/
def enter (t : Table (List String)) (id x : String) : Except Failure (Table (List String)) := do
  return t.put id ((← t.entry id).insert x)

end Table

/-- Sorts by keys that are looked up first. -/
def sortedBy {α β : Type} [LinearOrder β] (key : α → Except Failure β) (xs : List α) :
    Except Failure (List α) := do
  let keyed ← xs.mapM fun x => do return (← key x, x)
  return (keyed.mergeSort fun a b => a.1 ≤ b.1).map Prod.snd

/-! ## Arcs -/

structure Links where
  nodes : List String
  /-- The kind of every node. -/
  kinds : Table String := []
  /-- To every node the set of nodes that arcs lead to from it. -/
  successors : Table (List String)
  /-- To every node the set of nodes that arcs lead here from. -/
  predecessors : Table (List String)
  deriving DecidableEq, Repr

namespace Links

/-- Nodes without arcs. -/
def ofNodes (nodes : List String) (kinds : Table String := []) : Links where
  nodes := nodes
  kinds := kinds
  successors := .ofPairs (nodes.map fun id => (id, []))
  predecessors := .ofPairs (nodes.map fun id => (id, []))

/-- Enters the target under the source and the source under the target. -/
def addArc (l : Links) (u v : String) : Except Failure Links := do
  let successors ← l.successors.enter u v
  let predecessors ← l.predecessors.enter v u
  return { l with successors := successors, predecessors := predecessors }

/-- Adds arcs from left to right. -/
def addArcs (l : Links) (arcs : List (String × String)) : Except Failure Links :=
  arcs.foldlM (fun l a => l.addArc a.1 a.2) l

/-! ## Places -/

/-- The place of every node; of a repeated one, the last. -/
def places (l : Links) : Table Nat :=
  .ofPairs l.nodes.zipIdx

def sortedByPlace (l : Links) (ids : List String) : Except Failure (List String) :=
  sortedBy l.places.entry ids

/-- All arcs by the place of their source and then of their target. -/
def sortedArcs (l : Links) : Except Failure (List (String × String)) :=
  sortedBy (fun a => do return toLex (← l.places.entry a.1, ← l.places.entry a.2))
    (l.successors.flatMap fun e => e.2.map fun v => (e.1, v))

/-! ## Counting down -/

/-- A plan in the making. -/
structure Countdown where
  layers : List (List String) := []
  /-- The next layer. -/
  current : List String
  /-- How many nodes the layers hold. -/
  scheduled : Nat := 0
  /-- How many arcs to each node are still to be counted. -/
  inDegree : Table Int

/-- Counts one arc to a node; the node joins those that are ready if it was the last. -/
def countDown (state : Table Int × List String) (v : String) :
    Except Failure (Table Int × List String) := do
  let left := (← state.1.entry v) - 1
  return (state.1.put v left, if left = 0 then state.2.insert v else state.2)

/-- Counts all arcs from a node. -/
def release (l : Links) (state : Table Int × List String) (u : String) :
    Except Failure (Table Int × List String) := do
  (← l.successors.entry u).foldlM countDown state

/-- One layer more, unless no node is ready. -/
def nextLayer (l : Links) (c : Countdown) : Except Failure (Countdown ⊕ Countdown) :=
  if c.current = [] then return .inl c
  else do
    let (inDegree, ready) ← c.current.foldlM l.release (c.inDegree, [])
    return .inr {
      layers := c.layers ++ [c.current]
      current := ← l.sortedByPlace ready
      scheduled := c.scheduled + c.current.length
      inDegree := inDegree }

/-- The nodes whose count passes a test. -/
def counted (l : Links) (inDegree : Table Int) (test : Int → Bool) :
    Except Failure (List String) :=
  l.nodes.filterM fun id => do return test (← inDegree.entry id)

/-- The state of the count before the first layer. -/
def startCount (l : Links) : Except Failure Countdown := do
  let degrees ← l.nodes.mapM fun id => do return (id, ((← l.predecessors.entry id).length : Int))
  let inDegree := Table.ofPairs degrees
  return { current := ← l.counted inDegree (· = 0), inDegree := inDegree }

/-! ## Plans -/

/-- The candidates that arcs lead to from a node, by their places. -/
def targets (l : Links) (candidates : List String) (u : String) : Graph.Attempt (List String) :=
  liftM do l.sortedByPlace ((← l.successors.entry u).filter (· ∈ candidates))

/-- The layers, or a shortest cycle among the nodes that are left over. -/
def schedule (l : Links) : Graph.Attempt Plan := do
  let done ← Part.loop (fun c => liftM (l.nextLayer c)) (← l.startCount)
  if done.scheduled = l.nodes.length then return ⟨done.layers⟩
  else
    let remaining ← l.counted done.inDegree (0 < ·)
    throw (.fault (.ofKind (.cycle (← Graph.shortestAmong (l.targets remaining) remaining))))

end Links
end ProjectComposer
