import ScriptHost.Cli.Arguments
import ScriptHost.Cli.Help
import ScriptHost.Cli.Info
import ScriptHost.Cli.Stress

/-!
# The program

A run of the command line program, from its arguments to what it prints and its status.
-/

namespace ScriptHost.Cli

/-- What a run of the program comes to. -/
structure Ran where
  status : Nat := 0
  stdout : String := ""
  stderr : String := ""
deriving DecidableEq, Repr

/-- The status for a command line that is wrong. -/
def usageStatus : Nat := 2

/-- The status for a program that broke off. -/
def brokenStatus : Nat := 101

/-- What an interruption comes to. -/
def Interruption.ran : Interruption → Ran
  | .help spec => { stdout := Help.ofCommand spec }
  | .programHelp false => { stdout := Help.ofProgram }
  | .programHelp true => { stdout := Help.ofProgramLong }
  | .version => { stdout := s!"{Grammar.program} {Grammar.version}\n" }
  | .nothing => { status := usageStatus, stderr := Help.ofProgram }
  | .mistake text =>
    { status := usageStatus
      stderr := s!"error: {text}\n\n{Help.programUsage}\nFor more information, try '--help'.\n" }

/-- What a command does. -/
def Command.job (settings : Settings) : Command → Job Unit
  | .run file args noLoop safe => Job.runFile settings file args noLoop safe
  | .eval script safe => Job.evalScript settings script safe
  | .stress threads count json => Stress.run settings threads count json
  | .info json => Info.run settings json

/-- What a failure comes to, after what was printed. -/
def Failure.ran (failure : Failure) (stdout stderr : String) : Ran :=
  let (status, told) := failure.status
  { status, stdout, stderr := if told then stderr ++ failure.report else stderr }

/-- What a job comes to. -/
def Job.ran (job : Job Unit) (w : World) : Ran :=
  match ExceptT.run job w with
  | .ok (.ok ()) w => { stdout := w.stdout, stderr := w.stderr }
  | .ok (.error failure) w => failure.ran w.stdout w.stderr
  | .error (.unwind signal) w => (Failure.host none (.fatal signal)).ran w.stdout w.stderr
  | .error (.panic payload) w =>
    { status := brokenStatus, stdout := w.stdout, stderr := w.stderr ++ payload.message ++ "\n" }
  | .error .stalled w =>
    { status := brokenStatus, stdout := w.stdout, stderr := w.stderr ++ "stalled\n" }

/-- Run the program. `timer` is the value of the environment variable for the intervals. -/
def run (files : Machine.Files) (timer : Option String) (args : List String) : Ran :=
  match readCommandLine args with
  | .error interruption => interruption.ran
  | .ok invocation =>
    match Settings.load files invocation.config timer with
    | .error failure => failure.ran "" ""
    | .ok settings =>
      (invocation.command.job settings).ran
        { files, hub := { globalTimerMs := settings.globalTimerMs } }

end ScriptHost.Cli
