import ProjectComposer.Diagnostic.Fault
import ProjectComposer.Plugin.Registry

/-!
Validation of the structure of a blueprint: ids, kinds, edges, ports and required inputs. All
findings are collected, in this order: ids, kinds, edges, required inputs. A blueprint without
nodes has one finding and no others.
-/
namespace ProjectComposer
set_option autoImplicit false
open Wire

/-! ## Findings -/

inductive Finding
  | noNodes
  | noId
  | repeatedId (node : String)
  | unknownKind (node kind : String)
  | unknownSource (edge node : String)
  | unknownTarget (edge node : String)
  | loop (edge node : String)
  | noOutput (e : Endpoint)
  | noInput (e : Endpoint)
  | mismatch (source : Endpoint) (sourceType : DataType) (target : Endpoint) (targetType : DataType)
  | unwired (e : Endpoint)
  deriving DecidableEq, Repr

namespace Finding

def message : Finding → String
  | .noNodes => "Blueprint must contain at least one node"
  | .noId => "Node missing 'id' field"
  | .repeatedId n => "Duplicate node ID '" ++ n ++ "'"
  | .unknownKind _ k => "Unknown node type '" ++ k ++ "'"
  | .unknownSource e n => "Edge '" ++ e ++ "' references unknown source node '" ++ n ++ "'"
  | .unknownTarget e n => "Edge '" ++ e ++ "' references unknown target node '" ++ n ++ "'"
  | .loop e n => "Edge '" ++ e ++ "' connects node '" ++ n ++ "' to itself"
  | .noOutput a => "Node '" ++ a.node ++ "' has no output port '" ++ a.port ++ "'"
  | .noInput a => "Node '" ++ a.node ++ "' has no input port '" ++ a.port ++ "'"
  | .mismatch s st t tt =>
    "Data type mismatch: " ++ s.node ++ "." ++ s.port ++ " (" ++ Named.name st ++ ") -> " ++
      t.node ++ "." ++ t.port ++ " (" ++ Named.name tt ++ ")"
  | .unwired a => "Required input '" ++ a.port ++ "' is not connected"

/-- The node that a finding is about, where it is one of the blueprint. -/
def node? : Finding → Option String
  | .noNodes | .noId | .unknownSource .. | .unknownTarget .. => none
  | .repeatedId n | .unknownKind n _ | .loop _ n => some n
  | .noOutput a | .noInput a | .unwired a => some a.node
  | .mismatch _ _ t _ => some t.node

def port? : Finding → Option String
  | .noOutput a | .noInput a | .unwired a => some a.port
  | .mismatch _ _ t _ => some t.port
  | _ => none

def diagnostic (f : Finding) : Diagnostic :=
  { code := "graph_error", message := f.message, nodeId := f.node?, field := f.port? }

end Finding

/-! ## Ports -/

namespace Plugin

/-- The first port with an id, where it is an output. -/
def outputPort? (p : Plugin) (id : String) : Option Port :=
  (p.port? id).filter fun q => q.direction = .output

/-- The first port with an id, where it is an input. -/
def inputPort? (p : Plugin) (id : String) : Option Port :=
  (p.port? id).filter fun q => q.direction = .input

end Plugin

/-! ## Nodes -/

/-- Findings about the ids of nodes; `seen` holds those met so far. -/
def idFindings (seen : List String) : List Node → List Finding
  | [] => []
  | n :: more =>
    if n.id = "" then .noId :: idFindings seen more
    else if n.id ∈ seen then .repeatedId n.id :: idFindings seen more
    else idFindings (n.id :: seen) more

/-- The first node with each id that is not empty; `seen` holds the ids met so far. -/
def firstNodes (seen : List String) : List Node → List Node
  | [] => []
  | n :: more =>
    if n.id = "" ∨ n.id ∈ seen then firstNodes seen more
    else n :: firstNodes (n.id :: seen) more

def kindFindings (r : Registry) (nodes : List Node) : List Finding :=
  nodes.filterMap fun n => if r.has n.kind then none else some (.unknownKind n.id n.kind)

/-! ## Edges -/

/-- The two nodes that an edge joins. -/
def Edge.ends (e : Edge) (nodes : List Node) : Except Finding (Node × Node) :=
  match nodes.find? fun n => n.id = e.source.node with
  | none => .error (.unknownSource e.id e.source.node)
  | some s =>
    match nodes.find? fun n => n.id = e.target.node with
    | none => .error (.unknownTarget e.id e.target.node)
    | some t => if s.id = t.id then .error (.loop e.id s.id) else .ok (s, t)

/-- The ports that an edge joins, or what is wrong with them; nothing where a kind is unknown. -/
def Edge.ports (e : Edge) (r : Registry) (s t : Node) : Except (List Finding) (Port × Port) :=
  match r.get? s.kind, r.get? t.kind with
  | some p, some q =>
    match p.outputPort? e.source.port, q.inputPort? e.target.port with
    | some o, some i => .ok (o, i)
    | none, some _ => .error [.noOutput e.source]
    | some _, none => .error [.noInput e.target]
    | none, none => .error [.noOutput e.source, .noInput e.target]
  | _, _ => .error []

def Edge.findings (e : Edge) (r : Registry) (nodes : List Node) : List Finding :=
  match e.ends nodes with
  | .error f => [f]
  | .ok (s, t) =>
    match e.ports r s t with
    | .error fs => fs
    | .ok (o, i) =>
      if o.dataType.fits i.dataType then []
      else [.mismatch e.source o.dataType e.target i.dataType]

/-- Whether an edge reaches an input from an output, of whatever type. -/
def Edge.isWired (e : Edge) (r : Registry) (nodes : List Node) : Bool :=
  match e.ends nodes with
  | .error _ => false
  | .ok (s, t) =>
    match e.ports r s t with
    | .error _ => false
    | .ok _ => true

/-! ## Required inputs -/

def inputFindings (r : Registry) (wired : List Endpoint) (nodes : List Node) : List Finding :=
  nodes.flatMap fun n =>
    match r.get? n.kind with
    | none => []
    | some p =>
      p.inputPorts.filterMap fun q =>
        if q.required ∧ ⟨n.id, q.id⟩ ∉ wired then some (.unwired ⟨n.id, q.id⟩) else none

/-! ## Blueprints -/

namespace Blueprint

def findings (b : Blueprint) (r : Registry) : List Finding :=
  if b.nodes.isEmpty then [.noNodes]
  else
    let nodes := firstNodes [] b.nodes
    let wired := (b.edges.filter fun e => e.isWired r nodes).map (·.target)
    idFindings [] b.nodes ++ kindFindings r nodes ++
      b.edges.flatMap (fun e => e.findings r nodes) ++ inputFindings r wired nodes

def validateStructure (b : Blueprint) (r : Registry) : Except Fault Unit :=
  match b.findings r with
  | [] => .ok ()
  | fs => .error (.ofFindings (fs.map Finding.diagnostic))

end Blueprint
end ProjectComposer
