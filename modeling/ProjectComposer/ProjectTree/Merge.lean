import ProjectComposer.Diagnostic.Fault
import ProjectComposer.ProjectTree.Basic

/-!
Merging. The artifacts of all contributions are grouped by key before anything is decided, and all
that is listed comes in sorted order, so neither the order nor the repetition of contributions
matters. Contributors to one key have to agree: on the content at a path, the default of a variable,
the command of a script, the version of a dependency. Every disagreement is reported, and the fault
is that of the first one in the order paths, variables, scripts, dependencies, by key in each.
-/
namespace ProjectComposer
set_option autoImplicit false

/-- What one node adds to a project, its files at their final paths. -/
structure Contribution where
  nodeId : String
  pluginId : String
  output : Output
  deriving DecidableEq, Repr

namespace Merge

/-! ## Entries -/

/-- A value that a node puts under a key. -/
structure Entry where
  nodeId : String
  pluginId : String
  value : String
  deriving DecidableEq, Repr

def values (es : List Entry) : List String :=
  Text.sortedDistinct (es.map (·.value))

def nodes (es : List Entry) : List String :=
  Text.sortedDistinct (es.map (·.nodeId))

def plugins (es : List Entry) : List String :=
  Text.sortedDistinct (es.map (·.pluginId))

/-- Artifacts with the contribution that holds each. -/
abbrev Offered (α : Type) := List (Contribution × α)

def offered {α : Type} (cs : List Contribution) (artifacts : Output → List α) : Offered α :=
  cs.flatMap fun c => (artifacts c.output).map fun a => (c, a)

def entry {α : Type} (value : α → String) (a : Contribution × α) : Entry :=
  ⟨a.1.nodeId, a.1.pluginId, value a.2⟩

/-! ## Disagreements -/

def nodeList (es : List Entry) : String :=
  " (nodes: " ++ Fault.commaSeparated (nodes es) ++ ")"

/-- Different contents at one path. -/
def collision (path : String) (es : List Entry) : Fault :=
  let kind := Fault.Kind.collision path (plugins es) (nodes es)
  .ofKind kind [{
    code := kind.code
    message := kind.message ++ nodeList es
    path := some path
    pluginIds := plugins es }]

/-- Different values under one key. -/
def conflict (what key : String) (es : List Entry) : Fault :=
  let kind := Fault.Kind.conflict what key (values es) (nodes es)
  .ofKind kind [{
    code := kind.code
    message := kind.message ++ nodeList es
    field := some key
    pluginIds := plugins es }]

/-- The value that all entries share, if there is any entry. -/
def agreed (disagreement : List Entry → Fault) (es : List Entry) : Except Fault (Option String) :=
  match values es with
  | [] => .ok none
  | [v] => .ok (some v)
  | _ => .error (disagreement es)

/-! ## Groups -/

/-- Merges the artifacts under every key, by key. -/
def byKey {α β : Type} (key : α → String) (merge : String → List α → Except Fault β) (l : List α) :
    List (Except Fault β) :=
  (Text.sortedDistinct (l.map key)).map fun k => merge k (l.filter fun a => key a = k)

def merged {β : Type} (rs : List (Except Fault β)) : List β :=
  rs.filterMap fun
    | .ok b => some b
    | .error _ => none

def faults {β : Type} (rs : List (Except Fault β)) : List Fault :=
  rs.filterMap fun
    | .ok _ => none
    | .error f => some f

/-- The first fault, with the diagnostics of all. -/
def raiseFirst : List Fault → Except Fault Unit
  | [] => .ok ()
  | f :: more => .error { f with diagnostics := (f :: more).flatMap (·.diagnostics) }

/-! ## Paths -/

/-- The contents offered at each path. -/
def pathEntries (cs : List Contribution) (includeDocs : Bool) : List (String × Entry) :=
  (offered cs (·.files)).map (fun a => (a.2.path, entry File.content a)) ++
    if includeDocs then (offered cs (·.docs)).map fun a => (a.2.path, entry Doc.render a) else []

/-- A file of the tree with the nodes that it comes from. -/
structure Placed where
  path : String
  content : String
  origins : List String

def mergePath (path : String) (es : List (String × Entry)) : Except Fault Placed := do
  let es := es.map (·.2)
  let content ← agreed (collision path) es
  pure ⟨path, content.getD "", nodes es⟩

/-- Every document of the index, with the least of its titles. -/
def docIndex (cs : List Contribution) (origins : Table (List String)) : List DocEntry :=
  let docs := (offered cs (·.docs)).map (·.2)
  (Text.sortedDistinct (docs.map (·.path))).map fun path =>
    let titles := Text.sortedDistinct ((docs.filter fun d => d.path = path).map (·.title))
    ⟨path, titles.headD "", (origins.get? path).getD []⟩

/-! ## Variables, scripts, dependencies -/

/-- The descriptions that show something, trimmed, once each. -/
def descriptions (ds : List String) : String :=
  Text.joinTexts "; " (Text.sortedDistinct ((ds.map Text.strip).filter (· ≠ "")))

/-- The default of a variable, unless it is blank. -/
def shownDefault (v : EnvVar) : Option String :=
  v.default.filter fun s => !Text.isBlankText s

def mergeEnvVar (key : String) (vs : Offered EnvVar) : Except Fault MergedEnvVar := do
  let shown := vs.filterMap fun a => (shownDefault a.2).map fun s => (a.1, s)
  let default ← agreed (conflict "env var default" key) (shown.map (entry id))
  pure {
    key := key
    description := descriptions (vs.map (·.2.description))
    required := vs.any (·.2.required)
    default := default
    secret := vs.any (·.2.secret)
    origins := nodes (vs.map (entry EnvVar.key)) }

def mergeScript (name : String) (ss : Offered Script) : Except Fault MergedScript := do
  let es := ss.map (entry Script.command)
  let command ← agreed (conflict "script" name) es
  let description := descriptions (ss.filterMap (·.2.description))
  pure {
    name := name
    command := command.getD ""
    description := if description = "" then none else some description
    origins := nodes es }

def trimmedVersion (d : Dependency) : String :=
  Text.strip d.version

def mergeDependency (name : String) (ds : Offered Dependency) : Except Fault MergedDependency := do
  let es := ds.map (entry trimmedVersion)
  let version ← agreed (conflict "dependency version" name) es
  pure ⟨name, version.getD "", ds.all (·.2.dev), nodes es⟩

end Merge

/-! ## Trees -/

namespace ProjectTree
open Merge

/-- The tree of all contributions; documents are left out where they are not included. -/
def ofContributions (cs : List Contribution) (includeDocs : Bool := true) :
    Except Fault ProjectTree := do
  let paths := byKey Prod.fst mergePath (pathEntries cs includeDocs)
  let envVars := byKey (·.2.key) mergeEnvVar (offered cs (·.envVars))
  let scripts := byKey (·.2.name) mergeScript (offered cs (·.scripts))
  let dependencies := byKey (·.2.name) mergeDependency (offered cs (·.dependencies))
  raiseFirst (faults paths ++ faults envVars ++ faults scripts ++ faults dependencies)
  let placed := merged paths
  let origins := placed.map fun p => (p.path, p.origins)
  pure {
    files := placed.map fun p => (p.path, p.content)
    origins := origins
    envVars := merged envVars
    scripts := merged scripts
    docs := if includeDocs then docIndex cs origins else []
    dependencies := merged dependencies }

/-! ## Adding files -/

/-- A tree that is being extended, with the collisions met so far. -/
structure Extension where
  files : Table String
  origins : Table (List String)
  collisions : List Fault := []

/-- Who puts what at the path of a file, where nodes of a tree have put a content there. -/
def clashEntries (origin : String) (plugins : Table String) (f : File) (content : String)
    (present : List String) : List Entry :=
  present.map (fun n => ⟨n, (plugins.get? n).getD n, content⟩) ++ [⟨origin, origin, f.content⟩]

/-- Adds one file. A file that is there already with the same content gains an origin. -/
def Extension.add (origin : String) (plugins : Table String) (x : Extension) (f : File) :
    Except Failure Extension :=
  match x.files.get? f.path with
  | none =>
    .ok { x with files := x.files.put f.path f.content, origins := x.origins.put f.path [origin] }
  | some content =>
    match x.origins.get? f.path with
    | none => .error (.lookup (.origins f.path))
    | some present =>
      if content = f.content then
        let extended := Text.sortedDistinct (present ++ [origin])
        .ok { x with origins := x.origins.put f.path extended }
      else
        let fault := collision f.path (clashEntries origin plugins f content present)
        .ok { x with collisions := x.collisions ++ [fault] }

/-- The tree with more files, all from one origin, taken in the order of their paths. `plugins`
tells the plugins of the nodes in the tree. -/
def addFiles (t : ProjectTree) (files : List File) (origin : String)
    (plugins : Table String := []) : Except Failure ProjectTree := do
  let x ← (Text.sortByKey File.path files).foldlM (Extension.add origin plugins)
    ⟨t.files, t.origins, []⟩
  (raiseFirst x.collisions).mapError .fault
  pure { t with
    files := Text.sortByKey Prod.fst x.files
    origins := Text.sortByKey Prod.fst x.origins }

end ProjectTree
end ProjectComposer
