import ProjectComposer.Wire.Record

/-!
Project trees: the files of a generated project by path, the nodes each of them comes from, and the
environment variables, scripts, documents and package dependencies that the nodes agreed on.
-/
namespace ProjectComposer
set_option autoImplicit false
open Wire

/-! ## Merged artifacts -/

structure MergedEnvVar where
  key : String
  description : String := ""
  required : Bool := false
  default : Option String := none
  secret : Bool := false
  origins : List String := []
  deriving DecidableEq, Repr

structure MergedScript where
  name : String
  command : String
  description : Option String := none
  origins : List String := []
  deriving DecidableEq, Repr

/-- The entry of a document in the index. -/
structure DocEntry where
  path : String
  title : String
  origins : List String := []
  deriving DecidableEq, Repr

structure MergedDependency where
  name : String
  version : String
  dev : Bool := false
  origins : List String := []
  deriving DecidableEq, Repr

/-! ## Trees -/

structure ProjectTree where
  files : Table String := []
  /-- The nodes that each file comes from, by path. -/
  origins : Table (List String) := []
  envVars : List MergedEnvVar := []
  scripts : List MergedScript := []
  docs : List DocEntry := []
  dependencies : List MergedDependency := []
  layers : List (List String) := []
  deriving DecidableEq, Repr

/-- The path of every file with the bytes that it takes. -/
def ProjectTree.manifest (t : ProjectTree) : List (String × Nat) :=
  t.files.map fun f => (f.1, f.2.utf8ByteSize)

/-! ## JSON form -/

def MergedEnvVar.codec : Codec MergedEnvVar :=
  (Codec.record "MergedEnvVar" <|
    .required (.plain "key") .text <|
    .withDefault (.plain "description") .text "" <|
    .withDefault (.plain "required") .bool false <|
    .withDefault ⟨"default_value", "defaultValue"⟩ (.optional .text) none <|
    .withDefault (.plain "secret") .bool false <|
    .withFresh (.plain "origins") (.list .text) [] .done).imap
    (fun (key, description, required, default, secret, origins, ()) =>
      ⟨key, description, required, default, secret, origins⟩)
    (fun v => (v.key, v.description, v.required, v.default, v.secret, v.origins, ()))

def MergedScript.codec : Codec MergedScript :=
  (Codec.record "MergedScript" <|
    .required (.plain "name") .text <|
    .required (.plain "command") .text <|
    .withDefault (.plain "description") (.optional .text) none <|
    .withFresh (.plain "origins") (.list .text) [] .done).imap
    (fun (name, command, description, origins, ()) => ⟨name, command, description, origins⟩)
    (fun s => (s.name, s.command, s.description, s.origins, ()))

def DocEntry.codec : Codec DocEntry :=
  (Codec.record "DocIndexEntry" <|
    .required (.plain "path") .text <|
    .required (.plain "title") .text <|
    .withFresh (.plain "origins") (.list .text) [] .done).imap
    (fun (path, title, origins, ()) => ⟨path, title, origins⟩)
    (fun d => (d.path, d.title, d.origins, ()))

def MergedDependency.codec : Codec MergedDependency :=
  (Codec.record "MergedDependency" <|
    .required (.plain "name") .text <|
    .required (.plain "version") .text <|
    .withDefault (.plain "dev") .bool false <|
    .withFresh (.plain "origins") (.list .text) [] .done).imap
    (fun (name, version, dev, origins, ()) => ⟨name, version, dev, origins⟩)
    (fun d => (d.name, d.version, d.dev, d.origins, ()))

namespace ProjectTree

def codec : Codec ProjectTree :=
  (Codec.record "ProjectTree" <|
    .withFresh (.plain "files") (.map .text) [] <|
    .withFresh (.plain "origins") (.map (.list .text)) [] <|
    .withFresh ⟨"env_vars", "envVars"⟩ (.list MergedEnvVar.codec) [] <|
    .withFresh (.plain "scripts") (.list MergedScript.codec) [] <|
    .withFresh (.plain "docs") (.list DocEntry.codec) [] <|
    .withFresh (.plain "dependencies") (.list MergedDependency.codec) [] <|
    .withFresh (.plain "layers") (.list (.list .text)) [] .done).imap
    (fun (files, origins, envVars, scripts, docs, dependencies, layers, ()) =>
      ⟨files, origins, envVars, scripts, docs, dependencies, layers⟩)
    (fun t =>
      (t.files, t.origins, t.envVars, t.scripts, t.docs, t.dependencies, t.layers, ()))

def toJson (t : ProjectTree) : Json :=
  codec.write .camel t

def validate (v : Json) : Except Rejection ProjectTree :=
  codec.validate "ProjectTree" .memory v

/-- The manifest as a list of paths with sizes. -/
def manifestJson (t : ProjectTree) : Json :=
  .list (t.manifest.map fun e => .object [("path", .text e.1), ("size", .int e.2)])

end ProjectTree
end ProjectComposer
