import ProjectComposer.CommandLine.Arguments

/-!
The help texts of the program and of its commands.
-/
namespace ProjectComposer.CommandLine
set_option autoImplicit false

def helpLine : String :=
  "  -h, --help            show this help message and exit"

def programHelp : String :=
  Text.lines [
    "usage: dappforge [-h] [--log-level LOG_LEVEL] \x7bplugins,validate,compile\x7d ...",
    "",
    "Compile dApp blueprints into project source trees.",
    "",
    "positional arguments:",
    "  \x7bplugins,validate,compile\x7d",
    "    plugins             List registered plugins",
    "    validate            Validate a blueprint and print its execution layers",
    "    compile             Compile a blueprint and print the project tree",
    "",
    "options:",
    helpLine,
    "  --log-level LOG_LEVEL",
    "                        Logging level (defaults to DAPPFORGE_LOG_LEVEL)",
    "                        (default: None)"]

def Command.help : Command → String
  | .plugins =>
    Text.lines [
      "usage: dappforge plugins [-h]",
      "",
      "options:",
      "  -h, --help  show this help message and exit"]
  | .validate =>
    Text.lines [
      "usage: dappforge validate [-h] blueprint",
      "",
      "positional arguments:",
      "  blueprint   Path to a blueprint JSON file",
      "",
      "options:",
      "  -h, --help  show this help message and exit"]
  | .compile =>
    Text.lines [
      "usage: dappforge compile [-h] [--manifest] [--max-workers MAX_WORKERS]",
      "                         blueprint",
      "",
      "positional arguments:",
      "  blueprint             Path to a blueprint JSON file",
      "",
      "options:",
      helpLine,
      "  --manifest            Only print the path and size of every generated file",
      "  --max-workers MAX_WORKERS",
      "                        Concurrent plugin generations per layer (defaults to",
      "                        DAPPFORGE_MAX_WORKERS)"]

def help : Option Command → String
  | none => programHelp
  | some c => c.help

end ProjectComposer.CommandLine
