import ProjectComposer.Artifact.Category
import ProjectComposer.Wire.Record

/-!
What a generator produces for one node: files, environment variables, scripts, documents and package
dependencies, each in the order in which they were added.
-/
namespace ProjectComposer
set_option autoImplicit false
open Wire

/-! ## Artifacts -/

structure File where
  path : String
  content : String
  /-- Where set, the layout places the file. -/
  category : Option Category := none
  deriving DecidableEq, Repr

structure EnvVar where
  key : String
  description : String := ""
  required : Bool := true
  default : Option String := none
  secret : Bool := false
  deriving DecidableEq, Repr

structure Script where
  name : String
  command : String
  description : Option String := none
  deriving DecidableEq, Repr

structure Doc where
  path : String
  title : String
  content : String
  deriving DecidableEq, Repr

/-- The text of a document, its title as a heading. -/
def Doc.render (d : Doc) : String :=
  "# " ++ d.title ++ "\n\n" ++ d.content

structure Dependency where
  name : String
  version : String
  dev : Bool := false
  deriving DecidableEq, Repr

structure Output where
  files : List File := []
  envVars : List EnvVar := []
  scripts : List Script := []
  docs : List Doc := []
  dependencies : List Dependency := []
  deriving DecidableEq, Repr

namespace Output

/-! ## Adding -/

def addFile (o : Output) (f : File) : Output :=
  { o with files := o.files ++ [f] }

def addEnvVar (o : Output) (v : EnvVar) : Output :=
  { o with envVars := o.envVars ++ [v] }

def addScript (o : Output) (s : Script) : Output :=
  { o with scripts := o.scripts ++ [s] }

def addDoc (o : Output) (d : Doc) : Output :=
  { o with docs := o.docs ++ [d] }

def addDependency (o : Output) (d : Dependency) : Output :=
  { o with dependencies := o.dependencies ++ [d] }

/-- The artifacts of both, those of the first in front. -/
def append (a b : Output) : Output where
  files := a.files ++ b.files
  envVars := a.envVars ++ b.envVars
  scripts := a.scripts ++ b.scripts
  docs := a.docs ++ b.docs
  dependencies := a.dependencies ++ b.dependencies

def paths (o : Output) : List String :=
  o.files.map (·.path)

end Output

/-! ## JSON form -/

def File.codec : Codec File :=
  (Codec.record "GeneratedFile" <|
    .required (.plain "path") .text <|
    .required (.plain "content") .text <|
    .withDefault (.plain "category") (.optional .oneOf) none .done).imap
    (fun (path, content, category, ()) => ⟨path, content, category⟩)
    (fun f => (f.path, f.content, f.category, ()))

def EnvVar.codec : Codec EnvVar :=
  (Codec.record "EnvVarSpec" <|
    .required (.plain "key") (.textWith { least := 1 }) <|
    .withDefault (.plain "description") .text "" <|
    .withDefault (.plain "required") .bool true <|
    .withDefault ⟨"default_value", "defaultValue"⟩ (.optional .text) none <|
    .withDefault (.plain "secret") .bool false .done).imap
    (fun (key, description, required, default, secret, ()) =>
      ⟨key, description, required, default, secret⟩)
    (fun v => (v.key, v.description, v.required, v.default, v.secret, ()))

def Script.codec : Codec Script :=
  (Codec.record "ScriptSpec" <|
    .required (.plain "name") (.textWith { least := 1 }) <|
    .required (.plain "command") .text <|
    .withDefault (.plain "description") (.optional .text) none .done).imap
    (fun (name, command, description, ()) => ⟨name, command, description⟩)
    (fun s => (s.name, s.command, s.description, ()))

def Doc.codec : Codec Doc :=
  (Codec.record "DocSpec" <|
    .required (.plain "path") .text <|
    .required (.plain "title") .text <|
    .required (.plain "content") .text .done).imap
    (fun (path, title, content, ()) => ⟨path, title, content⟩)
    (fun d => (d.path, d.title, d.content, ()))

def Dependency.codec : Codec Dependency :=
  (Codec.record "PackageDependency" <|
    .required (.plain "name") (.textWith { least := 1 }) <|
    .required (.plain "version") .text <|
    .withDefault (.plain "dev") .bool false .done).imap
    (fun (name, version, dev, ()) => ⟨name, version, dev⟩)
    (fun d => (d.name, d.version, d.dev, ()))

def Output.codec : Codec Output :=
  (Codec.record "CodegenOutput" <|
    .withFresh (.plain "files") (.list File.codec) [] <|
    .withFresh ⟨"env_vars", "envVars"⟩ (.list EnvVar.codec) [] <|
    .withFresh (.plain "scripts") (.list Script.codec) [] <|
    .withFresh (.plain "docs") (.list Doc.codec) [] <|
    .withFresh (.plain "dependencies") (.list Dependency.codec) [] .done).imap
    (fun (files, envVars, scripts, docs, dependencies, ()) =>
      ⟨files, envVars, scripts, docs, dependencies⟩)
    (fun o => (o.files, o.envVars, o.scripts, o.docs, o.dependencies, ()))

def Output.validate (v : Json) : Except Rejection Output :=
  Output.codec.validate "CodegenOutput" .memory v

end ProjectComposer
