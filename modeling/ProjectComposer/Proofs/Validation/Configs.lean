import ProjectComposer.Proofs.Execution.Slots
import ProjectComposer.Proofs.Validation.Widened

/-!
The configs of a blueprint, node by node. Configs are refused as a whole if the schema of one node
refuses its config; the fault names the first such node and tells of every issue of all of them.
Otherwise each id that some node of a registered kind has is bound, at its first place, to the
config of the last such node. Ids may be repeated and kinds unknown.
-/
namespace ProjectComposer
set_option autoImplicit false
open Wire

/-! ## Single nodes -/

namespace Node

/-- The schema of the node's plugin reads its config. -/
def Reads (r : Registry) (n : Node) (c : Config) : Prop :=
  ∃ p, r.get? n.kind = some p ∧ p.schema.read n.config = .ok c

variable {r : Registry} {n : Node}

/-- A node's own entry of the issues. -/
def refusal (r : Registry) (n : Node) : Option (String × Issues) :=
  match n.readConfig r with
  | some (.error is) => some (n.id, is)
  | _ => none

end Node

/-! ## Diagnostics -/

/-- The parts of the way to a value: names as they are, positions as numbers. -/
def Wire.Location.parts (l : Location) : List String :=
  l.map fun
    | .name s => s
    | .index i => toString i

/-- The diagnostics of a node with an entry among the issues. -/
def Issues.diagnosed (e : String × Issues) : List Diagnostic :=
  e.2.toList.map (Issue.configDiagnostic · e.1)

namespace Blueprint
variable {b : Blueprint} {r : Registry}

end Blueprint
end ProjectComposer
