import ProjectComposer.Artifact.Output
import ProjectComposer.Layout.Directory
import ProjectComposer.Path.Glob

/-!
Routing: the final path of every file and document of an output. A file without a category may get
one from the glob mappings of its plugin, where the first pattern that matches wins and the file
keeps its path below the pattern's literal directory. The directory of the category is then put in
front of the normalized path.
-/
namespace ProjectComposer
set_option autoImplicit false

/-! ## Glob mappings -/

/-- Patterns with the category of the files they match, in order of declaration. -/
abbrev Mappings := List (String × Category)

/-- The path that patterns see: slashes alone, and no `./` in front. -/
def File.mappedPath (f : File) : String :=
  let cs := Text.forwardSlashes f.path.toList
  match cs with
  | '.' :: '/' :: rest => String.ofList rest
  | _ => String.ofList cs

/-- The path below a literal directory, where it is not empty and the path lies in it. -/
def pathBelow (directory : List Char) (path : String) : String :=
  if directory ≠ [] ∧ (directory ++ ['/']).isPrefixOf path.toList then
    String.ofList (path.toList.drop (directory.length + 1))
  else path

def Mappings.find? (m : Mappings) (path : String) : Option (String × Category) :=
  List.find? (fun e => Path.matchGlob path e.1) m

/-- A file without category, given the one of the first mapping that matches. -/
def File.mapped (f : File) (m : Mappings) : File :=
  match f.category with
  | some _ => f
  | none =>
    match m.find? f.mappedPath with
    | none => f
    | some (pattern, category) =>
      { f with
        path := pathBelow (Path.literalDirectory pattern) f.mappedPath
        category := some category }

/-! ## Final paths -/

def File.outputPath (f : File) (l : Layout) : Except Path.Refusal String := do
  let relative ← Path.normalize f.path
  match f.category with
  | none => pure relative
  | some c =>
    let base := l.directory c
    if base = "" then pure relative else Path.normalize (Path.join [base, relative])

def File.routed (f : File) (m : Mappings) (l : Layout) : Except Path.Refusal File := do
  let mapped := f.mapped m
  let path ← mapped.outputPath l
  pure { path := path, content := mapped.content }

def Doc.routed (d : Doc) : Except Path.Refusal Doc := do
  let path ← Path.normalize d.path
  pure { d with path := path }

/-- The output with every file and document at its final path; routed files have no category. -/
def Output.routed (o : Output) (m : Mappings) (l : Layout) : Except Path.Refusal Output := do
  let files ← o.files.mapM fun f => f.routed m l
  let docs ← o.docs.mapM Doc.routed
  pure { o with files := files, docs := docs }

end ProjectComposer
