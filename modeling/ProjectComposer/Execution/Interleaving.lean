import ProjectComposer.Execution.Run

/-!
Interleaved runs. The nodes of a layer start and finish in any order, as many at once as there are
workers. What a layer gave is written down only when all of its nodes have finished, so a node that
starts sees the outputs of the layers before, whatever its siblings have done. The next layer opens
then, unless a node failed. A call that is never heard of finishes here when its generator is
through; that it keeps its worker is left aside.
-/
namespace ProjectComposer
set_option autoImplicit false

/-! ## Moments -/

/-- How far a node of the current layer has come. -/
inductive Progress
  | waiting
  | running (call : Except Failure Job.Call)
  | finished (o : NodeOutcome)

namespace Progress

def isRunning : Progress → Bool
  | .running _ => true
  | _ => false

def hasStarted : Progress → Bool
  | .waiting => false
  | _ => true

def outcome? : Progress → Option NodeOutcome
  | .finished o => some o
  | _ => none

end Progress

/-- A moment of a run. -/
structure Moment where
  /-- The outputs of the layers before. -/
  completed : Table Output := []
  /-- The results of the layers before, in the order of the plan. -/
  results : List NodeResult := []
  /-- The contexts of all nodes that have started, in the order of their starts. -/
  calls : List Context := []
  layer : Table Progress := []
  later : List (List String)

namespace Moment

/-- How many nodes are running. -/
def running (m : Moment) : Nat :=
  m.layer.countP fun e => e.2.isRunning

/-- What the layer gave, once all of its nodes have finished. -/
def settled (m : Moment) : Option (Except Failure (List NodeResult)) :=
  if m.layer.all fun e => e.2.outcome?.isSome then
    some (NodeOutcome.settle (m.layer.filterMap fun e => e.2.outcome?))
  else none

/-- What the run ended with, once it has ended. -/
def ended? (m : Moment) : Option (Except Failure (List NodeResult)) :=
  match m.settled, m.later with
  | some (.error f), _ => some (.error f)
  | some (.ok rs), [] => some (.ok (m.results ++ rs))
  | _, _ => none

end Moment

/-! ## Events -/

inductive Event
  | opens
  | starts (id : String)
  | finishes (id : String)
  deriving DecidableEq, Repr

namespace Moment

/-- What the layer gave is written down, and another one opens. -/
def advance (m : Moment) (rs : List NodeResult) (next : List String) (later : List (List String)) :
    Moment :=
  { m with
    completed := m.completed ++ Job.outputsOf rs
    results := m.results ++ rs
    layer := next.map fun id => (id, .waiting)
    later := later }

/-- The next layer opens once all nodes of the current one have finished, unless one failed. -/
def opened (m : Moment) : Option Moment :=
  match m.settled, m.later with
  | some (.ok rs), next :: later => some (m.advance rs next later)
  | _, _ => none

/-- A waiting node starts where a worker is free. -/
def started (j : Job) (limit : Nat) (m : Moment) (id : String) : Option Moment :=
  match m.layer.get? id with
  | some .waiting =>
    if m.running < limit then
      let call := j.call m.completed id
      some { m with
        calls := m.calls ++ (Job.callsMade [call]).map (·.context)
        layer := m.layer.put id (.running call) }
    else none
  | _ => none

/-- A running node finishes. -/
def finished (m : Moment) (id : String) : Option Moment :=
  match m.layer.get? id with
  | some (.running call) => some { m with layer := m.layer.put id (.finished (.ofCall call)) }
  | _ => none

/-- The moment after an event; none where the event cannot be. -/
def after (j : Job) (limit : Nat) (m : Moment) : Event → Option Moment
  | .opens => m.opened
  | .starts id => m.started j limit id
  | .finishes id => m.finished id

end Moment

end ProjectComposer
