/-!
# The command line

What may stand on the command line of the program: its commands with their options and arguments.
The same description serves for reading a command line and for the help.
-/

namespace ScriptHost.Cli

/-- What values an option or an argument takes. -/
inductive ValueKind
  | text
  /-- Any text but the empty one. -/
  | path
  /-- A whole number of 64 bits. -/
  | count
deriving DecidableEq, Repr

/-- An option. -/
structure OptionSpec where
  long : String
  short : Option Char := none
  /-- The name and the kind of its value, if it takes one. -/
  value : Option (String × ValueKind) := none
  about : String
  /-- The value that it has when it is not given. -/
  default : Option String := none
deriving DecidableEq, Repr

/-- An argument. -/
structure ArgumentSpec where
  name : String
  kind : ValueKind := .text
  about : String
  /-- Whether it takes all that is left, also what looks like an unknown option. -/
  rest : Bool := false
deriving DecidableEq, Repr

/-- A command. The options are in the order of the help. -/
structure CommandSpec where
  name : String
  about : String
  arguments : List ArgumentSpec := []
  options : List OptionSpec := []
deriving DecidableEq, Repr

namespace Grammar

/-- The name of the program. -/
def program : String := "tkb"

/-- The version of the program. -/
def version : String := "0.1.0"

/-- What the program is for, in a line. -/
def about : String := "Run scripts on an embedded single-threaded interpreter"

/-- What the program is for, with examples. -/
def longAbout : String :=
  "tkb embeds a single-threaded interpreter and serves it to other threads.\n\n" ++
    "Run a script:  tkb run script.tcl\n" ++
    "Eval code:     tkb eval 'expr \x7b6 * 7\x7d'\n" ++
    "Stress it:     tkb stress --threads 8 --count 500"

/-- The option for more output. -/
def verbose : OptionSpec :=
  { long := "verbose", short := some 'v', about := "Verbose output" }

/-- The option that names the file with the settings. -/
def config : OptionSpec :=
  { long := "config", value := some ("CONFIG", .path), about := "Config file path" }

/-- The option for a safe interpreter. -/
def safe : OptionSpec :=
  { long := "safe", about := "Evaluate in a safe interpreter" }

/-- The option for output in JSON. -/
def json : OptionSpec :=
  { long := "json", about := "Output as JSON" }

/-- The option for the help of a command. -/
def help : OptionSpec :=
  { long := "help", short := some 'h', about := "Print help" }

/-- The options in front of the command. -/
def globalOptions : List OptionSpec :=
  [ verbose, config, { help with about := "Print help (see more with '--help')" },
    { long := "version", short := some 'V', about := "Print version" } ]

/-- The command that runs a file. -/
def run : CommandSpec :=
  { name := "run"
    about := "Evaluate a script file, then serve its pending events"
    arguments :=
      [ { name := "FILE", kind := .path, about := "Script file to evaluate" },
        { name := "ARGS", about := "Arguments exposed to the script as \x60argv\x60",
          rest := true } ]
    options :=
      [ { long := "no-loop"
          about := "Return right after the script instead of serving pending events" },
        verbose, config, safe, help ] }

/-- The command that evaluates a script. -/
def eval : CommandSpec :=
  { name := "eval"
    about := "Evaluate a script and print the result"
    arguments := [{ name := "SCRIPT", about := "Script to evaluate" }]
    options := [safe, verbose, config, help] }

/-- The command that makes many calls from many threads. -/
def stress : CommandSpec :=
  { name := "stress"
    about := "Send commands from many threads and report dispatch statistics"
    options :=
      [ { long := "threads", short := some 't', value := some ("THREADS", .count),
          about := "Number of calling threads", default := some "4" },
        verbose, config,
        { long := "count", short := some 'n', value := some ("COUNT", .count),
          about := "Commands sent by each thread", default := some "1000" },
        json, help ] }

/-- The command that describes the program. -/
def info : CommandSpec :=
  { name := "info"
    about := "Show runtime information"
    options := [json, verbose, config, help] }

/-- The command that prints the help of a command. -/
def helpCommand : CommandSpec :=
  { name := "help"
    about := "Print this message or the help of the given subcommand(s)"
    arguments :=
      [{ name := "COMMAND", about := "Print help for the subcommand(s)", rest := true }] }

/-- The commands in the order of the help. -/
def commands : List CommandSpec :=
  [run, eval, stress, info, helpCommand]

/-- The command with a name. -/
def command? (name : String) : Option CommandSpec :=
  commands.find? fun spec => spec.name == name

end Grammar

end ScriptHost.Cli
