import ProjectComposer.Artifact.Output
import ProjectComposer.Blueprint.Codec
import ProjectComposer.Json.Writer
import ProjectComposer.Plugin.Registry
import ProjectComposer.ProjectTree.Basic
import ProjectComposer.Text.Lowercase

/-!
The files at the root of a project: the package manifest with the merged scripts and dependencies,
an example of the environment, and, where documents are wanted, an overview.
-/
namespace ProjectComposer
set_option autoImplicit false

namespace RootFiles

/-! ## Package manifest -/

/-- The name of a project in lower case, its words joined by dashes. -/
def packageName (name : String) : String :=
  let slug := Text.dashed (Text.lowerChars (Text.trimBy Text.isBlank name.toList))
  if slug = [] then Blueprint.fallbackName else String.ofList slug

/-- A member with a text, where there is one that is not empty. -/
def shownText (key : String) : Option String → Json.Object
  | none => []
  | some s => if s = "" then [] else [(key, .text s)]

/-- An object of texts, the last one of a repeated key taken. -/
def textObject (pairs : List (String × String)) : Json :=
  .object (Table.ofPairs (pairs.map fun p => (p.1, .text p.2)))

def versions (t : ProjectTree) (dev : Bool) : Json :=
  textObject ((t.dependencies.filter fun d => d.dev = dev).map fun d => (d.name, d.version))

def packageManifest (t : ProjectTree) (s : Settings) : Json :=
  let p := s.project
  .object <|
    [("name", .text (packageName p.name)), ("version", .text p.version), ("private", .bool true)] ++
    shownText "description" p.description ++
    shownText "author" p.author ++
    [("license", .text (Wire.Named.name p.license))] ++
    (if p.keywords = [] then [] else [("keywords", Json.texts p.keywords)]) ++
    [("scripts", textObject (t.scripts.map fun c => (c.name, c.command))),
      ("dependencies", versions t false),
      ("devDependencies", versions t true)]

def packageJson (t : ProjectTree) (s : Settings) : String :=
  (packageManifest t s).indented ++ "\n"

/-! ## Example of the environment -/

def envBlock (v : MergedEnvVar) : String :=
  "# " ++ (if v.description = "" then v.key else v.description) ++
    (if v.required then " (required)" else "") ++ (if v.secret then " [secret]" else "") ++ "\n" ++
    v.key ++ "=" ++ v.default.getD ""

def envExample (t : ProjectTree) (s : Settings) : String :=
  "# Environment variables for " ++ s.project.name ++
    "\n# Copy to .env and fill in the values\n\n" ++
    (if t.envVars = [] then "# No environment variables required"
      else Text.joinTexts "\n\n" (t.envVars.map envBlock)) ++ "\n"

/-! ## Overview -/

/-- A line under its own heading, where there are items. -/
def listing (head items : List String) : List String :=
  if items = [] then [] else head ++ items ++ [""]

def networkLine (n : Network) : String :=
  "Network: " ++ n.name ++ " (chain id " ++ toString n.chainId ++ ", " ++
    (if n.isTestnet then "testnet" else "mainnet") ++ ")"

def componentLine (r : Registry) (n : Node) : String :=
  let label := match r.get? n.kind with
    | some p => p.card.name
    | none => n.kind
  "- " ++ label ++ " (`" ++ n.id ++ "`)"

def scriptLine (c : MergedScript) : String :=
  "- `npm run " ++ c.name ++ "`" ++
    match c.description with
    | none => ""
    | some d => if d = "" then "" else ": " ++ d

def envLine (v : MergedEnvVar) : String :=
  "- `" ++ v.key ++ "`" ++ if v.required then " (required)" else ""

def docLine (d : DocEntry) : String :=
  "- [" ++ d.title ++ "](" ++ d.path ++ ")"

def readmeLines (t : ProjectTree) (s : Settings) (b : Blueprint) (r : Registry) : List String :=
  ["# " ++ s.project.name, ""] ++
  (match s.project.description with
    | none => []
    | some d => if d = "" then [] else [d, ""]) ++
  (match s.network with
    | none => []
    | some n => [networkLine n, ""]) ++
  ["## Components", ""] ++ b.nodes.map (componentLine r) ++ [""] ++
  listing ["## Scripts", ""] (t.scripts.map scriptLine) ++
  listing ["## Environment", "", "See `.env.example`.", ""] (t.envVars.map envLine) ++
  listing ["## Documentation", ""] (t.docs.map docLine)

def readme (t : ProjectTree) (s : Settings) (b : Blueprint) (r : Registry) : String :=
  Text.joinTexts "\n" (readmeLines t s b r)

/-! ## All files -/

def files (t : ProjectTree) (s : Settings) (b : Blueprint) (r : Registry) : List File :=
  [{ path := "package.json", content := packageJson t s },
    { path := ".env.example", content := envExample t s }] ++
  if s.generateDocs then [{ path := "README.md", content := readme t s b r }] else []

/-- The root files, unless the overview would have to show a chain id that cannot be written. -/
def render (t : ProjectTree) (s : Settings) (b : Blueprint) (r : Registry) :
    Except Raised (List File) :=
  if s.generateDocs && !s.isWritable then .error .overlong else .ok (files t s b r)

end RootFiles
end ProjectComposer
