import ProjectComposer.BuiltIn.Registry
import ProjectComposer.Execution.Run
import ProjectComposer.Layout.Configured
import ProjectComposer.ProjectTree.Merge
import ProjectComposer.ProjectTree.RootFiles

/-!
Compilation of a blueprint to one project: configs, structure and dependencies are validated, the
generators run layer by layer, their outputs are routed to final paths and merged, and the root
files join them under the same rule of collision. No part of a project is given where a stage
fails.
-/
namespace ProjectComposer
set_option autoImplicit false

/-! ## Validation -/

/-- A registry without plugins stands for the built-in one. -/
def Registry.orBuiltIn (r : Registry) : Registry :=
  if r.plugins.isEmpty then .builtIn else r

def Blueprint.accept (b : Blueprint) (r : Registry) : Except Failure Blueprint.Accepted :=
  b.validated r.orBuiltIn

/-! ## Stages -/

/-- The job of an accepted blueprint. -/
def Blueprint.job (b : Blueprint) (r : Registry) (a : Blueprint.Accepted) (roots : Roots) : Job :=
  ⟨b, r, a, .configured b.nodes a.configs roots⟩

namespace Job

/-- What a node contributes, its files at their final paths. -/
def contribution (j : Job) (n : NodeResult) : Except Failure Contribution := do
  let p ← j.registry.find n.nodeKind
  match n.output.routed p.mappings j.layout with
  | .ok routed => pure ⟨n.nodeId, p.id, routed⟩
  | .error r => .error (.fault (.ofKind (.plugin ⟨n.nodeId, p.id, .refusedPath r⟩ [])))

/-- The origin of the root files. -/
def rootOrigin : String := "dappforge"

def tree (j : Job) (cs : List Contribution) : Except Failure ProjectTree := do
  let settings := j.blueprint.resolvedSettings
  let merged ← (ProjectTree.ofContributions cs settings.generateDocs).mapError .fault
  let rootFiles ← (RootFiles.render merged settings j.blueprint j.registry).mapError .raised
  let plugins := Table.ofPairs (cs.map fun c => (c.nodeId, c.pluginId))
  let whole ← merged.addFiles rootFiles rootOrigin plugins
  pure { whole with layers := j.accepted.plan.layers }

/-- Routes and merges the results of all nodes. -/
def assemble (j : Job) (results : List NodeResult) : Except Failure ProjectTree := do
  let cs ← results.mapM j.contribution
  j.tree cs

end Job

/-! ## Compilation -/

/-- A finished project with the results that it was made of. -/
structure Compiled where
  tree : ProjectTree
  results : List NodeResult

namespace Blueprint

/-- Compiles a blueprint, and tells which generators ran. -/
def compile (b : Blueprint) (r : Registry) (roots : Roots := {}) (workers : Option Int := none) :
    Trace × Except Failure Compiled :=
  match b.accept r, b.resolve with
  | .error f, _ => ({}, .error f)
  | .ok _, .error rejection => ({}, .error (.raised (.ofRejection rejection)))
  | .ok a, .ok _ =>
    let j := b.job r.orBuiltIn a roots
    let (trace, ran) := j.run workers
    (trace, ran.bind fun results => (j.assemble results).map fun tree => ⟨tree, results⟩)

end Blueprint

/-! ## Reports -/

/-- The outcome of a compilation that ended as it should: a project or diagnostics. -/
inductive Report
  | success (c : Compiled)
  | faulty (diagnostics : List Diagnostic)

/-- Faults are reported, other failures passed on. -/
def Report.ofOutcome : Except Failure Compiled → Except Failure Report
  | .ok c => .ok (.success c)
  | .error (.fault f) => .ok (.faulty f.diagnostics)
  | .error f => .error f

end ProjectComposer
