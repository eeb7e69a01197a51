import ProjectComposer.Execution.Inputs

/-!
Execution, layer by layer. All nodes of a layer run on the outputs of the layers before it, so their
order makes no difference. Where some fail, the others of the layer still run, and no later layer
does; the fault names the first node that failed, in the order of the layer. An error outside what
the run guards passes through it as it is, and a call that is never heard of leaves it waiting.
-/
namespace ProjectComposer
set_option autoImplicit false

/-! ## Calls -/

/-- Why a call came to no output. -/
inductive Mishap
  /-- It is reported as a failure of the node. -/
  | reported (cause : Cause)
  /-- It ends the run as it is. -/
  | escapes (f : Failure)

def Abort.mishap : Abort → Mishap
  | .raised e => .reported (.raised e)
  -- The report is made with the text of the error.
  | .untold e => .escapes (.raised e)
  | .cancelled => .escapes (.raised .cancelled)
  | .unheard => .escapes .unending

namespace Job.Call

/-- What a generator handed back, as an output. -/
def accept : Returned → Except Mishap Output
  | .output o => .ok o
  | .object m => (Output.validate (.object m)).mapError fun r => .reported (.rejected r)
  | .other type => .error (.reported (.notAnOutput type))
  -- Copies are made after all that is reported.
  | .unchecked e => .error (.escapes (.raised e))

def generated (c : Call) : Generated :=
  c.plugin.generate c.node c.context

def outcome (c : Call) : Except Mishap Output :=
  c.generated.result.mapError Abort.mishap >>= accept

def log (c : Call) : List String :=
  c.generated.log.map fun line => "[" ++ c.node.id ++ "] " ++ line

end Job.Call

/-! ## Layers -/

/-- What a run has done: the contexts of its calls, and the lines that were logged. -/
structure Trace where
  calls : List Context := []
  log : List String := []

def Trace.append (s t : Trace) : Trace :=
  ⟨s.calls ++ t.calls, s.log ++ t.log⟩

def Trace.ofCalls (cs : List Job.Call) : Trace :=
  ⟨cs.map (·.context), cs.flatMap (·.log)⟩

/-- The output of a node that ran to its end. -/
structure NodeResult where
  nodeId : String
  nodeKind : String
  output : Output
  deriving DecidableEq, Repr

/-- What became of one node of a layer. -/
inductive NodeOutcome
  | done (r : NodeResult)
  | failed (f : PluginFailure)
  | escaped (f : Failure)

namespace NodeOutcome

def ofCall : Except Failure Job.Call → NodeOutcome
  | .error f => .escaped f
  | .ok c =>
    match c.outcome with
    | .ok o => .done ⟨c.node.id, c.node.kind, o⟩
    | .error (.reported cause) => .failed ⟨c.node.id, c.plugin.id, cause⟩
    | .error (.escapes f) => .escaped f

def result? : NodeOutcome → Option NodeResult
  | .done r => some r
  | _ => none

def failure? : NodeOutcome → Option PluginFailure
  | .failed f => some f
  | _ => none

def escape? : NodeOutcome → Option Failure
  | .escaped f => some f
  | _ => none

/-- What ends a layer unreported: a wait without end, and otherwise the first escape. -/
def breach (os : List NodeOutcome) : Option Failure :=
  if .unending ∈ os.filterMap escape? then some .unending else os.findSome? escape?

/-- The results of a layer. What is not reported comes before the failures of generators. -/
def settle (os : List NodeOutcome) : Except Failure (List NodeResult) :=
  match breach os with
  | some f => .error f
  | none =>
    match os.filterMap failure? with
    | [] => .ok (os.filterMap result?)
    | first :: siblings => .error (.fault (.ofKind (.plugin first siblings)))

end NodeOutcome

namespace Job

def calls (j : Job) (finished : Table Output) (layer : List String) : List (Except Failure Call) :=
  layer.map (j.call finished)

def callsMade (cs : List (Except Failure Call)) : List Call :=
  cs.filterMap fun
    | .ok c => some c
    | .error _ => none

def runLayer (j : Job) (finished : Table Output) (layer : List String) :
    Trace × Except Failure (List NodeResult) :=
  let cs := j.calls finished layer
  (.ofCalls (callsMade cs), NodeOutcome.settle (cs.map .ofCall))

/-! ## Plans -/

def outputsOf (rs : List NodeResult) : Table Output :=
  rs.map fun r => (r.nodeId, r.output)

/-- Runs the layers in turn and stops after one that fails. -/
def runLayers (j : Job) (finished : Table Output) :
    List (List String) → Trace × Except Failure (List NodeResult)
  | [] => ({}, .ok [])
  | layer :: more =>
    let (trace, settled) := j.runLayer finished layer
    match settled with
    | .error f => (trace, .error f)
    | .ok rs =>
      let (later, rest) := j.runLayers (finished ++ outputsOf rs) more
      (trace.append later, rest.map (rs ++ ·))

/-- The number of workers when none is asked for. -/
def defaultWorkers : Int := 4

/-- How many nodes may run at once; zero asks for the default. -/
def workers (asked : Option Int) : Int :=
  match asked with
  | some n => if n = 0 then defaultWorkers else n
  | none => defaultWorkers

/-- Runs every node once, in the order of the plan. The number of workers makes no difference unless
it is negative, or a call that is never heard of keeps its worker. -/
def run (j : Job) (asked : Option Int := none) : Trace × Except Failure (List NodeResult) :=
  if workers asked < 0 then ({}, .error .workers)
  else j.runLayers [] j.accepted.plan.layers

end Job
end ProjectComposer
