import ProjectComposer.CommandLine.Files
import ProjectComposer.CommandLine.Help
import ProjectComposer.Compilation

/-!
The program behind the command line, as a function of its arguments and of the files that it may
read. It ends with a status of 0, 1 for a faulty blueprint, 2 for misuse and for a blueprint that
cannot be had, or breaks off on what it does not expect: a file that is none, or a negative number
of workers.
-/
namespace ProjectComposer.CommandLine
set_option autoImplicit false
open Wire

/-! ## Outcomes -/

structure Finished where
  status : Nat
  out : String := ""
  err : String := ""
  deriving DecidableEq, Repr

inductive Outcome
  | finished (f : Finished)
  /-- The arguments alone ended the program, with a status and a text. -/
  | usage (status : Nat) (out : String)
  | failed (f : Failure)
  | broken (o : Obstacle) (path : String)

/-- A document on the output, with a line feed at its end. -/
def document (v : Json) : String :=
  v.indented ++ "\n"

/-! ## Commands -/

/-- The text, filled up with blanks to a width. -/
def padded (width : Nat) (s : String) : String :=
  s ++ String.ofList (List.replicate (width - s.toList.length) ' ')

def pluginLine (p : Plugin) : String :=
  padded 26 p.card.id ++ " " ++ padded 10 (Named.name p.card.field) ++ " " ++ p.card.name

def listPlugins : Outcome :=
  .finished ⟨0, Text.lines (Registry.builtIn.plugins.map pluginLine), ""⟩

def report (f : Fault) : Outcome :=
  .finished {
    status := 1
    out := document <| .object [
      ("code", .text f.code),
      ("diagnostics", .list (f.diagnostics.map Diagnostic.toJson))]
    err := "Error: " ++ f.message ++ "\n" }

def validate (b : Blueprint) : Outcome :=
  match b.accept .builtIn with
  | .ok a =>
    .finished {
      status := 0
      out := document <| .object [
        ("valid", .bool true),
        ("layers", .list (a.plan.layers.map Json.texts))] }
  | .error (.fault f) => report f
  | .error f => .failed f

def compile (b : Blueprint) (manifest : Bool) (workers : Option Int) : Outcome :=
  match (b.compile .builtIn {} workers).2 with
  | .ok c => .finished ⟨0, document (if manifest then c.tree.manifestJson else c.tree.toJson), ""⟩
  | .error (.fault f) => report f
  | .error f => .failed f

/-- Reads the blueprint of a file and goes on with it. -/
def withBlueprint (file : String) (read : String → Reading) (next : Blueprint → Outcome) :
    Outcome :=
  let path := cleanPath file
  match read path with
  | .missing => .finished ⟨2, "", "Blueprint file not found: " ++ path ++ "\n"⟩
  | .broken o => .broken o path
  | .text s =>
    match Blueprint.ofDocument s with
    | .error r => .finished ⟨2, "", "Invalid blueprint: " ++ r.message ++ "\n"⟩
    | .ok b => next b

def perform (read : String → Reading) : Request → Outcome
  | .plugins => listPlugins
  | .validate file => withBlueprint file read validate
  | .compile file manifest workers => withBlueprint file read fun b => compile b manifest workers

/-- The file that a request reads. -/
def Request.file? : Request → Option String
  | .plugins => none
  | .validate file | .compile file _ _ => some file

/-- Runs the program; `read` gives what is at a path. -/
def run (args : List String) (read : String → Reading) : Outcome :=
  match CommandLine.read args with
  | .error .misuse => .usage 2 ""
  | .error (.help c) => .usage 0 (help c)
  | .ok request => perform read request

end ProjectComposer.CommandLine
