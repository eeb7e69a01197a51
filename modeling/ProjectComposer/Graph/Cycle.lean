import ProjectComposer.Graph.Basic

/-!
Shortest cycles. From every candidate a search goes through the candidates in rounds, one round
for each length. It holds a trail from the start to each vertex first met in the last round, and
ends with the first trail that an arc closes. The rounds keep the order of the vertices, so of
several trails of one length the earliest is met first.
-/
namespace ProjectComposer.Graph
set_option autoImplicit false

/-! ## Trails -/

/-- The nodes on a way through a graph, the last one apart and the others in reverse. -/
structure Trail where
  last : String
  earlier : List String := []

def Trail.extend (t : Trail) (v : Vertex) : Trail :=
  ⟨v.id, t.last :: t.earlier⟩

def Trail.nodes (t : Trail) : List String :=
  (t.last :: t.earlier).reverse

/-! ## Rounds -/

/-- Extends every trail to the vertices not met so far, and gives those that are still left. -/
def extendAll : List Trail → List Vertex → List Trail × List Vertex
  | [], unmet => ([], unmet)
  | t :: more, unmet =>
    let here := unmet.filter fun v => v.follows t.last
    let rest := extendAll more (unmet.filter fun v => !v.follows t.last)
    (here.map t.extend ++ rest.1, rest.2)

theorem length_extendAll (ts : List Trail) (unmet : List Vertex) :
    (extendAll ts unmet).1.length + (extendAll ts unmet).2.length = unmet.length := by
  induction ts generalizing unmet with
  | nil => simp [extendAll]
  | cons t more ih =>
    have h := ih (unmet.filter fun v => !v.follows t.last)
    have h' := unmet.length_eq_countP_add_countP fun v => v.follows t.last
    simp only [List.countP_eq_length_filter, Bool.decide_eq_true, decide_not] at h'
    simp only [extendAll, List.length_append, List.length_map]
    omega

/-- The first way back to the start, round by round. -/
def closeFrom (start : Vertex) (trails : List Trail) (unmet : List Vertex) : Option (List String) :=
  match trails.find? fun t => start.follows t.last with
  | some t => some t.nodes
  | none =>
    if (extendAll trails unmet).1 = [] then none
    else closeFrom start (extendAll trails unmet).1 (extendAll trails unmet).2
termination_by unmet.length
decreasing_by
  have h := length_extendAll trails unmet
  have h' := List.length_pos_iff.mpr (by assumption)
  omega

/-! ## Cycles -/

/-- The first of the shortest cycles through `start` that stay among the candidates. -/
def cycleThrough? (g : Graph) (candidates : List String) (start : Vertex) : Option (List String) :=
  closeFrom start [⟨start.id, []⟩] <|
    (Vertex.distinct g.vertices).filter fun v => v.id ∈ candidates ∧ v.id ≠ start.id

/-- Keeps the best cycle so far unless a new one is shorter. -/
def shorter (best new : Option (List String)) : Option (List String) :=
  match best, new with
  | some b, some c => if c.length < b.length then some c else some b
  | some b, none => some b
  | none, new => new

/-- Tries one start after the other; a cycle of two nodes is not improved on. -/
def bestCycle (g : Graph) (candidates : List String) :
    List String → Option (List String) → Except Failure (Option (List String))
  | [], best => .ok best
  | s :: more, best =>
    match g.vertices.find? fun v => v.id = s with
    | none => .error (.lookup (.node s))
    | some start =>
      let best' := shorter best (g.cycleThrough? candidates start)
      if best'.any fun c => c.length = 2 then .ok best' else bestCycle g candidates more best'

/-- A shortest cycle among the candidates, or the candidates where there is none. -/
def shortestCycle (g : Graph) (candidates : List String) : Except Failure (List String) := do
  let best ← g.bestCycle candidates candidates none
  pure (best.getD candidates)

end ProjectComposer.Graph
