import ProjectComposer.Diagnostic.Fault
import ProjectComposer.Plugin.Registry

/-!
Validation of configs. Every node of a registered kind has its config read by the schema of its
plugin; nodes of other kinds are passed over here and reported by the structure. The issues of all
nodes go into one fault, which names the first of them.
-/
namespace ProjectComposer
set_option autoImplicit false
open Wire

/-! ## Readings -/

/-- The config of a node of a registered kind, as its schema reads it. -/
def Node.readConfig (n : Node) (r : Registry) : Option (Checked Config) :=
  (r.get? n.kind).map fun p => p.schema.read n.config

namespace Blueprint

/-- The configs that were read, by node; of nodes with one id the last counts. -/
def configs (b : Blueprint) (r : Registry) : Table Config :=
  .ofPairs <| b.nodes.filterMap fun n =>
    match n.readConfig r with
    | some (.ok c) => some (n.id, c)
    | _ => none

/-- The issues of the configs that were refused, by node. -/
def configIssues (b : Blueprint) (r : Registry) : List (String × Issues) :=
  b.nodes.filterMap fun n =>
    match n.readConfig r with
    | some (.error is) => some (n.id, is)
    | _ => none

end Blueprint

/-! ## Faults -/

/-- What a config breaks. -/
def Wire.Issue.constraint (i : Issue) : String :=
  i.problem.message .memory

def Wire.Issue.configDiagnostic (i : Issue) (nodeId : String) : Diagnostic :=
  let field := i.location.dotted
  { code := "schema_error"
    message :=
      "Node '" ++ nodeId ++ "' config '" ++ Fault.fieldOrRoot field ++ "': " ++ i.constraint
    nodeId := some nodeId
    field := some field }

/-- The fault of one or more nodes whose configs were refused. -/
def Fault.ofConfigIssues (first : String × Issues) (more : List (String × Issues)) : Fault :=
  .ofKind (.schema first.1 first.2.first.location.dotted first.2.first.constraint) <|
    (first :: more).flatMap fun e => e.2.toList.map (Issue.configDiagnostic · e.1)

def Blueprint.validateConfigs (b : Blueprint) (r : Registry) : Except Fault (Table Config) :=
  match b.configIssues r with
  | [] => .ok (b.configs r)
  | first :: more => .error (.ofConfigIssues first more)

/-- Reads the config of one node by the schema of a plugin. -/
def Node.validateConfig (n : Node) (p : Plugin) : Except Fault Config :=
  match p.schema.read n.config with
  | .ok c => .ok c
  | .error is => .error (.ofConfigIssues (n.id, is) [])

end ProjectComposer
