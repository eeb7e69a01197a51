import ProjectComposer.Validation.Dependencies

/-!
What a generator sees. The outputs visible to a node are those of its producers and of finished
nodes of the kinds that its plugin takes if they are there. An edge leads its source's output to
the slot of the target port; a need leads the outputs of all visible nodes of its kind to each of
its slots. A slot lists every producer once, those of edges first, and a slot without producers is
left out.
-/
namespace ProjectComposer
set_option autoImplicit false

/-! ## Jobs -/

/-- All that stays fixed while the generators of a blueprint run. -/
structure Job where
  blueprint : Blueprint
  registry : Registry
  accepted : Blueprint.Accepted
  layout : Layout

namespace Job

/-! ## Visible outputs -/

/-- Whether a plugin takes the outputs of a kind if they are there. -/
def wants (p : Plugin) (kind : String) : Bool :=
  p.optionalNeeds.any fun need => need.kind = kind

/-- Whether a node may see the output of the node with an id. -/
def mayShow (j : Job) (n : Node) (p : Plugin) (id : String) : Bool :=
  (j.accepted.graph.predecessors n.id).contains id ||
    j.blueprint.nodes.any fun m => m.id = id && m.id ≠ n.id && wants p m.kind

/-- The finished outputs that a node sees, in the order of the graph. -/
def visible (j : Job) (n : Node) (p : Plugin) (finished : Table Output) : Table Output :=
  j.accepted.graph.nodes.filterMap fun id =>
    if j.mayShow n p id then (finished.get? id).map fun o => (id, o) else none

/-! ## Slots -/

/-- A slot with a producer that feeds it. -/
abbrev Feed := String × String

def edgeFeeds (j : Job) (n : Node) (seen : Table Output) : List Feed :=
  j.blueprint.edges.filterMap fun e =>
    if e.target.node = n.id ∧ seen.has e.source.node then some (e.target.port, e.source.node)
    else none

/-- The visible nodes of the kind of a need. -/
def producers (j : Job) (n : Node) (need : Need) (seen : Table Output) : List String :=
  (j.blueprint.nodes.filter fun m => m.kind = need.kind ∧ seen.has m.id ∧ m.id ≠ n.id).map (·.id)

def needFeeds (j : Job) (n : Node) (p : Plugin) (seen : Table Output) : List Feed :=
  p.needs.flatMap fun need =>
    need.slots.flatMap fun slot => (j.producers n need seen).map fun id => (slot.2, id)

/-- The members of a list once each, at their first place. -/
def distinct : List String → List String
  | [] => []
  | a :: rest => a :: (distinct rest).filter fun b => b ≠ a

def feedsOf (feeds : List Feed) (slot : String) : List String :=
  distinct ((feeds.filter fun f => f.1 = slot).map (·.2))

def inputs (j : Job) (n : Node) (p : Plugin) (seen : Table Output) : Table (List Output) :=
  let feeds := j.edgeFeeds n seen ++ j.needFeeds n p seen
  (distinct (feeds.map (·.1))).map fun slot => (slot, (feedsOf feeds slot).filterMap seen.get?)

/-! ## Contexts -/

/-- A generator ready to run. -/
structure Call where
  node : Node
  plugin : Plugin
  context : Context

def context (j : Job) (n : Node) (p : Plugin) (config : Config) (finished : Table Output) :
    Context :=
  let seen := j.visible n p finished
  { blueprintId := j.blueprint.id
    nodeId := n.id
    settings := j.blueprint.resolvedSettings
    layout := j.layout
    config := config
    outputs := seen
    inputs := j.inputs n p seen }

/-- Looks up all that the call for a node needs. -/
def call (j : Job) (finished : Table Output) (id : String) : Except Failure Call := do
  let some n := j.blueprint.node? id | .error (.lookup (.node id))
  let p ← j.registry.find n.kind
  let some config := j.accepted.configs.get? id | .error (.lookup (.config id))
  pure ⟨n, p, j.context n p config finished⟩

end Job
end ProjectComposer
