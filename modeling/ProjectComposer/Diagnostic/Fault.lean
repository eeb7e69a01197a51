import ProjectComposer.Diagnostic.Basic
import ProjectComposer.Path.Normal
import ProjectComposer.Plugin.Basic
import ProjectComposer.Text.Quoted

/-!
Faults: why a compilation ends without a project. Every fault has a code, a message and at least
one diagnostic; where none is given, a fault carries its own message as its diagnostic, one for
each node of a cycle and one for each plugin that failed.

A `Failure` is a fault or another way to come to no project, which nothing reports: a look-up that
finds nothing, a negative number of workers, an error that passes every handler, and a wait without
end.
-/
namespace ProjectComposer
set_option autoImplicit false
open Wire

/-! ## Causes -/

/-- Why a generator's run is of no use. -/
inductive Cause
  | raised (e : Raised)
  | rejected (r : Rejection)
  /-- A result of a type that is no output. -/
  | notAnOutput (type : String)
  | refusedPath (r : Path.Refusal)
  deriving DecidableEq, Repr

namespace Cause

def kind : Cause → String
  | .raised e => e.kind
  | .rejected _ => "ValidationError"
  | .notAnOutput _ => "TypeError"
  | .refusedPath _ => "UnsafePathError"

def message : Cause → String
  | .raised e => e.message
  | .rejected r => r.text
  | .notAnOutput type => "generate() must return a CodegenOutput, got " ++ type
  | .refusedPath r => r.message

/-- The message inside a longer one, where missing keys are quoted. -/
def embedded (c : Cause) : String :=
  if c.kind = "KeyError" then Text.quoted c.message else c.message

end Cause

/-- One node whose generator failed. -/
structure PluginFailure where
  nodeId : String
  pluginId : String
  cause : Cause
  deriving DecidableEq, Repr

def PluginFailure.message (f : PluginFailure) : String :=
  "Plugin '" ++ f.pluginId ++ "' failed for node '" ++ f.nodeId ++ "': " ++ f.cause.kind ++ ": " ++
    f.cause.embedded

def PluginFailure.diagnostic (f : PluginFailure) : Diagnostic :=
  { code := "plugin_execution", message := f.message, nodeId := some f.nodeId
    pluginIds := [f.pluginId] }

/-! ## Faults -/

inductive Fault.Kind
  | general (message : String)
  | schema (nodeId field constraint : String)
  | graph (findings : List String)
  | missingDependency (pluginId nodeId : String) (requiredBy : Option String)
  | cycle (nodes : List String)
  | plugin (first : PluginFailure) (siblings : List PluginFailure)
  | collision (path : String) (pluginIds nodeIds : List String)
  | conflict (kind key : String) (values nodeIds : List String)
  deriving DecidableEq, Repr

structure Fault where
  kind : Fault.Kind
  diagnostics : List Diagnostic
  deriving DecidableEq, Repr

namespace Fault

def commaSeparated (l : List String) : String :=
  Text.joinTexts ", " l

/-- The name of a field, or of the whole config. -/
def fieldOrRoot (field : String) : String :=
  if field = "" then "<root>" else field

namespace Kind

def code : Kind → String
  | .general _ => "compile_error"
  | .schema .. => "schema_error"
  | .graph _ => "graph_error"
  | .missingDependency .. => "missing_dependency"
  | .cycle _ => "cyclic_dependency"
  | .plugin .. => "plugin_execution"
  | .collision .. => "path_collision"
  | .conflict .. => "merge_conflict"

/-- The nodes of a cycle with arrows between them, back to the first. -/
def cyclePath (nodes : List String) : String :=
  match nodes with
  | [] => ""
  | first :: _ => Text.joinTexts " -> " (nodes ++ [first])

def message : Kind → String
  | .general m => m
  | .schema nodeId field constraint =>
    "Node '" ++ nodeId ++ "' has invalid config at '" ++ fieldOrRoot field ++ "': " ++ constraint
  | .graph findings => "Blueprint graph is invalid: " ++ Text.joinTexts "; " findings
  | .missingDependency pluginId nodeId requiredBy =>
    let owner :=
      match requiredBy with
      | some p => if p = "" then "" else " (" ++ p ++ ")"
      | none => ""
    "Node '" ++ nodeId ++ "'" ++ owner ++ " requires a '" ++ pluginId ++
      "' node, but the blueprint has none"
  | .cycle nodes => "Dependency cycle detected: " ++ cyclePath nodes
  | .plugin first _ => first.message
  | .collision path pluginIds _ =>
    "Different content generated for '" ++ path ++ "' by plugins: " ++ commaSeparated pluginIds
  | .conflict kind key values _ =>
    "Conflicting " ++ kind ++ " values for '" ++ key ++ "': " ++
      commaSeparated (values.map Text.quoted)

/-- The diagnostics of a fault for which none are given. -/
def ownDiagnostics (k : Kind) : List Diagnostic :=
  let plain : Diagnostic := { code := k.code, message := k.message }
  match k with
  | .general _ | .graph _ => [plain]
  | .schema nodeId field _ => [{ plain with nodeId := some nodeId, field := some field }]
  | .missingDependency pluginId nodeId _ =>
    [{ plain with nodeId := some nodeId, pluginIds := [pluginId] }]
  | .cycle nodes =>
    if nodes = [] then [plain] else nodes.map fun n => { plain with nodeId := some n }
  | .plugin first siblings => (first :: siblings).map PluginFailure.diagnostic
  | .collision path pluginIds _ => [{ plain with path := some path, pluginIds := pluginIds }]
  | .conflict _ key _ _ => [{ plain with field := some key }]

theorem ownDiagnostics_ne_nil (k : Kind) : k.ownDiagnostics ≠ [] := by
  cases k <;> simp [ownDiagnostics]
  split <;> simp_all

end Kind

/-- A fault with the diagnostics given, or its own where there are none. -/
def ofKind (k : Kind) (given : List Diagnostic := []) : Fault :=
  ⟨k, if given = [] then k.ownDiagnostics else given⟩

def code (f : Fault) : String :=
  f.kind.code

def message (f : Fault) : String :=
  f.kind.message

theorem diagnostics_ofKind_ne_nil (k : Kind) (given : List Diagnostic) :
    (ofKind k given).diagnostics ≠ [] := by
  unfold ofKind
  split
  · exact k.ownDiagnostics_ne_nil
  · assumption

/-- The fault of findings about the graph of a blueprint. -/
def ofFindings (ds : List Diagnostic) : Fault :=
  ofKind (.graph (ds.map (·.message))) ds

end Fault

/-! ## Failures -/

/-- Something looked up by key that is not there. -/
inductive Lookup
  | node (id : String)
  | plugin (kind : String)
  | config (nodeId : String)
  | origins (path : String)
  deriving DecidableEq, Repr

def Lookup.message : Lookup → String
  | .node id => id
  | .plugin kind => "Plugin '" ++ kind ++ "' not found in registry"
  | .config nodeId => nodeId
  | .origins path => path

inductive Failure
  | fault (f : Fault)
  | lookup (l : Lookup)
  | workers
  | raised (e : Raised)
  | unending
  deriving DecidableEq, Repr

def Failure.message : Failure → String
  | .fault f => f.message
  | .lookup l => l.message
  | .workers => "Semaphore initial value must be >= 0"
  | .raised e => e.message
  | .unending => ""

end ProjectComposer
