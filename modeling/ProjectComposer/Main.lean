import ProjectComposer.CommandLine.Program

/-!
The executable: reads the file of the request, and prints the outcome.
-/
namespace ProjectComposer.CommandLine
set_option autoImplicit false

/-- What is at a path of the file system. -/
def readPath (path : String) : IO Reading := do
  try
    return .text (← IO.FS.readFile path)
  catch e =>
    match e with
    | .noFileOrDirectory .. => return .missing
    | e => return .broken (.other (toString e))

/-- The reading of the one file that the arguments may ask for. -/
def readingFor (args : List String) : IO Reading := do
  match CommandLine.read args with
  | .ok request =>
    match request.file? with
    | some file => readPath (cleanPath file)
    | none => return .missing
  | .error _ => return .missing

/-- Prints an outcome, and gives the status to end with. -/
def Outcome.print : Outcome → IO UInt32
  | .finished f => do
    IO.print f.out
    IO.eprint f.err
    return f.status.toUInt32
  | .usage status out => do
    IO.print out
    return status.toUInt32
  | .failed f => do
    IO.eprintln f.message
    return 1
  | .broken o path => do
    IO.eprintln (o.message path)
    return 1

end ProjectComposer.CommandLine

def main (args : List String) : IO UInt32 := do
  let reading ← ProjectComposer.CommandLine.readingFor args
  (ProjectComposer.CommandLine.run args fun _ => reading).print
