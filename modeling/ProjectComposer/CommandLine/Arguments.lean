import ProjectComposer.Number.Numeral
import ProjectComposer.Text.DecimalDigit
import ProjectComposer.Text.Segments

/-!
The arguments of the command line: a command with switches around it. A switch may be shortened as
long as one switch alone begins so, its value may follow it or stand behind `=`, and after `--`
every argument is taken as it stands; the name of the command may not stand there. An ambiguous
argument is misuse wherever it stands in front of `--`; else asking for help ends the reading where
it is met.
-/
namespace ProjectComposer.CommandLine
set_option autoImplicit false

/-! ## Commands -/

inductive Command
  | plugins
  | validate
  | compile
  deriving DecidableEq, Repr

def Command.ofName? : String → Option Command
  | "plugins" => some .plugins
  | "validate" => some .validate
  | "compile" => some .compile
  | _ => none

/-- A command with all that it needs. -/
inductive Request
  | plugins
  | validate (file : String)
  | compile (file : String) (manifest : Bool) (workers : Option Int)
  deriving DecidableEq, Repr

/-- Why reading ends without a request. -/
inductive Stop
  /-- Help is asked for, on the program or on a command. -/
  | help (command : Option Command)
  | misuse
  deriving DecidableEq, Repr

/-! ## Switches -/

inductive Switch
  | help
  | logLevel
  | manifest
  | maxWorkers
  deriving DecidableEq, Repr

def Switch.longName : Switch → String
  | .help => "--help"
  | .logLevel => "--log-level"
  | .manifest => "--manifest"
  | .maxWorkers => "--max-workers"

def programSwitches : List Switch :=
  [.help, .logLevel]

def Command.switches : Command → List Switch
  | .plugins | .validate => [.help]
  | .compile => [.help, .manifest, .maxWorkers]

/-! ## Kinds of arguments -/

inductive Argument
  | positional
  | switch (s : Switch) (value : Option String)
  | ambiguous
  | unknown
  deriving DecidableEq, Repr

/-- Cuts an argument at its first `=`. -/
def cutValue (arg : String) : String × Option String :=
  let cs := arg.toList
  match cs.dropWhile (· ≠ '=') with
  | [] => (arg, none)
  | _ :: value => (String.ofList (cs.takeWhile (· ≠ '=')), some (String.ofList value))

/-- A minus sign with digits, at most one point among them and digits behind it; a line feed may
end it. -/
def isNegativeNumeral (arg : String) : Bool :=
  match arg.toList with
  | '-' :: cs =>
    let cs := if cs.getLast? = some '\n' then cs.dropLast else cs
    let rest := cs.dropWhile Text.isDecimal
    let fraction := rest.drop 1
    if rest = [] then cs ≠ []
    else rest.head? = some '.' && fraction ≠ [] && fraction.all Text.isDecimal
  | _ => false

/-- An argument that names no switch. -/
def nameless (arg : String) : Argument :=
  if isNegativeNumeral arg ∨ ' ' ∈ arg.toList then .positional else .unknown

/-- The short switch for help with what it carries: each letter behind it is a switch again, so no
letter but its own may stand there. -/
def shortHelp (carried : String) : Argument :=
  let cs := carried.toList
  .switch .help (if cs ≠ [] ∧ cs.all (· = 'h') then none else some carried)

def shortForm (arg : String) : Argument :=
  match arg.toList with
  | ['-', 'h'] => .switch .help none
  | '-' :: 'h' :: '=' :: carried => shortHelp (String.ofList carried)
  | '-' :: 'h' :: carried => shortHelp (String.ofList carried)
  | _ => nameless arg

/-- An argument that begins with two dashes. -/
def longForm (switches : List Switch) (arg : String) : Argument :=
  let (name, value) := cutValue arg
  match switches.find? fun s => s.longName = name with
  | some s => .switch s value
  | none =>
    match switches.filter fun s => Text.startsWith name s.longName with
    | [] => nameless arg
    | [s] => .switch s value
    | _ => .ambiguous

/-- What an argument is, where `--` has not been met. -/
def classify (switches : List Switch) (arg : String) : Argument :=
  if arg = "-" ∨ !Text.startsWith "-" arg then .positional
  else if Text.startsWith "--" arg then longForm switches arg
  else shortForm arg

/-- Some argument in front of `--` is ambiguous. -/
def hasAmbiguous (switches : List Switch) (args : List String) : Bool :=
  (args.takeWhile (· ≠ "--")).any fun arg => classify switches arg = .ambiguous

/-- Whether an argument may be the value of the switch in front of it. -/
def isValue (switches : List Switch) (arg : String) : Bool :=
  arg ≠ "--" && classify switches arg = .positional

/-! ## Arguments of commands -/

/-- What has been read behind a command. -/
structure Given where
  file : Option String := none
  manifest : Bool := false
  workers : Option Int := none
  /-- Some argument has no place. -/
  surplus : Bool := false
  /-- The argument just read is the file. -/
  atFile : Bool := false

def Given.positional (c : Command) (g : Given) (arg : String) : Given :=
  if c = .plugins ∨ g.file ≠ none then { g with surplus := true, atFile := false }
  else { g with file := some arg, atFile := true }

/-- The mark `--` has its place in front of the file and behind it. -/
def Given.mark (c : Command) (g : Given) : Given :=
  if c = .plugins ∨ (g.file ≠ none ∧ !g.atFile) then { g with surplus := true } else g

def Given.setWorkers (g : Given) (value : String) : Except Stop Given :=
  match Numeral.integer? value with
  | some n => .ok { g with workers := some n, atFile := false }
  | none => .error .misuse

/-- Takes a value behind `=`; the mark `--` there leaves the number open. -/
def Given.attachWorkers (g : Given) (value : String) : Except Stop Given :=
  if value = "--" then .ok { g with workers := none, atFile := false } else g.setWorkers value

def readCommand (c : Command) (g : Given) : List String → Except Stop Given
  | [] => .ok g
  | arg :: rest =>
    if arg = "--" then .ok (rest.foldl (Given.positional c) (g.mark c))
    else
      match classify c.switches arg with
      | .positional => readCommand c (g.positional c arg) rest
      | .unknown => readCommand c { g with surplus := true, atFile := false } rest
      | .switch .help none => .error (.help (some c))
      | .switch .manifest none => readCommand c { g with manifest := true, atFile := false } rest
      | .switch .maxWorkers (some value) => do readCommand c (← g.attachWorkers value) rest
      | .switch .maxWorkers none =>
        match rest with
        | [] => .error .misuse
        | value :: rest =>
          if isValue c.switches value then do readCommand c (← g.setWorkers value) rest
          else .error .misuse
      | _ => .error .misuse

def Given.request (c : Command) (g : Given) : Except Stop Request :=
  if g.surplus then .error .misuse
  else
    match c, g.file with
    | .plugins, _ => .ok .plugins
    | .validate, some file => .ok (.validate file)
    | .compile, some file => .ok (.compile file g.manifest g.workers)
    | _, none => .error .misuse

/-! ## All arguments -/

/-- Reads the arguments of the command that is named. -/
def readNamed (surplus : Bool) (name : String) (rest : List String) : Except Stop Request :=
  match Command.ofName? name with
  | none => .error .misuse
  | some c =>
    if hasAmbiguous c.switches rest then .error .misuse
    else do
      let g ← readCommand c { surplus := surplus } rest
      g.request c

/-- Reads switches up to the command; `surplus` tells that some argument has no place. -/
def readFrom (surplus : Bool) : List String → Except Stop Request
  | [] => .error .misuse
  | arg :: rest =>
    if arg = "--" then .error .misuse
    else
      match classify programSwitches arg with
      | .positional => readNamed surplus arg rest
      | .unknown => readFrom true rest
      | .switch .help none => .error (.help none)
      | .switch .logLevel (some _) => readFrom surplus rest
      | .switch .logLevel none =>
        match rest with
        | [] => .error .misuse
        | value :: rest =>
          if isValue programSwitches value then readFrom surplus rest else .error .misuse
      | _ => .error .misuse

def read (args : List String) : Except Stop Request :=
  if hasAmbiguous programSwitches args then .error .misuse else readFrom false args

end ProjectComposer.CommandLine
