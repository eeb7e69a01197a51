import Mathlib.Data.PFun
import ProjectComposer.Graph.Cycle

/-!
Shortest cycles by a queue. The search from a start is a loop over the nodes met and not yet looked
at, in the order they were met; every node met but the start has a parent, the node it was met from.
A node with an arc to the start ends the search: its parents, followed back to the start, are the
cycle. Neither loop shows that it ends or that each node it looks up is there, so a search is an
attempt. It asks for the targets of a node, whatever way the arcs are kept.
-/
set_option autoImplicit false

/-! ## Loops -/

namespace Part

/-- What loops come to: a result or an error, and nothing at all where they go on for ever. -/
abbrev Attempt (ε α : Type) := ExceptT ε Part α

variable {ε σ α : Type}

/-- A turn of a loop is its last one if it has a result or fails. -/
def lastTurn : Except ε (α ⊕ σ) → Except ε α ⊕ σ
  | .ok (.inl a) => .inl (.ok a)
  | .ok (.inr s) => .inr s
  | .error e => .inl (.error e)

/-- Takes one turn after the other: each has a result or leads to another state. -/
def loop (turn : σ → Attempt ε (α ⊕ σ)) (s : σ) : Attempt ε α :=
  ExceptT.mk (PFun.fix (fun s => (turn s).run.map lastTurn) s)

end Part

namespace ProjectComposer.Graph

abbrev Attempt := Part.Attempt Failure

/-! ## Looking at a node -/

/-- The nodes met so far, and those of them that are still to be looked at. -/
structure Frontier where
  queue : List String
  met : List String
  /-- The node that each node was met from. -/
  parents : Table String := []

/-- The frontier of a search that has met nothing but its start. -/
def Frontier.start (s : String) : Frontier :=
  { queue := [s], met := [s] }

/-- The candidates that arcs lead to from a node, by their places. -/
def targetsOf (g : Graph) (candidates : List String) (u : String) : List String :=
  ((Vertex.distinct g.vertices).filter fun v => v.follows u ∧ v.id ∈ candidates).map (·.id)

def targets (g : Graph) (candidates : List String) (u : String) : Attempt (List String) :=
  if u ∈ g.nodes then pure (g.targetsOf candidates u) else throw (.lookup (.node u))

/-- Meets targets of a node from left to right. The flag tells that the start is one of them; the
targets behind it are passed over. -/
def meetFrom (s u : String) : List String → Frontier → Frontier × Bool
  | [], f => (f, false)
  | v :: more, f =>
    if v = s then (f, true)
    else if v ∈ f.met then meetFrom s u more f
    else meetFrom s u more ⟨f.queue ++ [v], f.met ++ [v], f.parents.put v u⟩

/-! ## The way back -/

def parentOf (parents : Table String) (u : String) : Attempt String :=
  match parents.get? u with
  | some p => pure p
  | none => throw (.lookup (.node u))

/-- Steps from a node to its parent unless it is the start; `after` is the way from the node on. -/
def stepBack (parents : Table String) (s : String) :
    String × List String → Attempt (List String ⊕ String × List String)
  | (u, after) =>
    if u = s then pure (.inl (u :: after))
    else do return .inr (← parentOf parents u, u :: after)

/-- Follows parents from a node back to the start. -/
def wayBack (parents : Table String) (s u : String) : Attempt (List String) :=
  Part.loop (stepBack parents s) (u, [])

/-! ## The queue -/

/-- Looks at the first node of the queue; parents are followed once an arc leads to the start. -/
def look (targets : String → Attempt (List String)) (s : String) :
    Frontier → Attempt (Option (List String) ⊕ Frontier)
  | ⟨[], _, _⟩ => pure (.inl none)
  | ⟨u :: queue, met, parents⟩ => do
    let next := meetFrom s u (← targets u) ⟨queue, met, parents⟩
    if next.2 then return .inl (some (← wayBack next.1.parents s u)) else return .inr next.1

/-- Looks at one node of the queue after the other until an arc leads back to the start. -/
def closeByQueue (targets : String → Attempt (List String)) (s : String) :
    Frontier → Attempt (Option (List String)) :=
  Part.loop (look targets s)

/-! ## Cycles -/

/-- The best cycle once another start is tried; an empty one stands for none. -/
def improved (best : List String) : Option (List String) → List String
  | some c => if best = [] ∨ c.length < best.length then c else best
  | none => best

/-- Tries one start after the other; a best cycle of two nodes is not improved on. -/
def bestByQueue (targets : String → Attempt (List String)) :
    List String → List String → Attempt (List String)
  | [], best => pure best
  | s :: more, best => do
    let best' := improved best (← closeByQueue targets s (.start s))
    if best'.length = 2 then pure best' else bestByQueue targets more best'

/-- The best cycle from the candidates as starts, or the candidates where there is none. -/
def shortestAmong (targets : String → Attempt (List String)) (candidates : List String) :
    Attempt (List String) := do
  let best ← bestByQueue targets candidates []
  pure (if best = [] then candidates else best)

/-- A shortest cycle among the candidates, or the candidates where there is none. -/
def shortestByQueue (g : Graph) (candidates : List String) : Attempt (List String) :=
  shortestAmong (g.targets candidates) candidates

end ProjectComposer.Graph
