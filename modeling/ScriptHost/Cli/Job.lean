import ScriptHost.Cli.Settings
import ScriptHost.Engine

/-!
# Jobs of the program

What a command of the program does with interpreters, and how a job that fails is told and which
status the program then ends with.
-/

namespace ScriptHost.Cli

/-- What a command does: it changes the state of the host and may fail. -/
abbrev Job := ExceptT Failure Act

namespace Failure

/-- A cause below the message of a failure, its lines moved to the right. -/
def below (cause : String) : String :=
  "\n\nCaused by:\n    " ++ "\n    ".intercalate (cause.splitOn "\n")

/-- What is told about a failure. -/
def report : Failure → String
  | .message text => s!"Error: {text}\n"
  | .caused text cause => s!"Error: {text}{below cause}\n"
  | .host none error => s!"Error: {error.message}\n"
  | .host (some doing) error => s!"Error: {doing}{below error.message}\n"

/-- The status for an interrupt. -/
def interrupted : Nat := 130

/-- The status of a failure, and whether it is told. The status that a script asks for is taken
modulo 256. -/
def status : Failure → Nat × Bool
  | .host _ (.fatal (.exit code)) => ((code % 256).toNat, false)
  | .host _ (.fatal .interrupt) => (interrupted, false)
  | _ => (1, true)

end Failure

namespace Job

variable {α : Type}

/-- A call on a handle as a part of a job. -/
def call (act : Act (Except HostError α)) (doing : Option String := none) : Job α :=
  ExceptT.mk do return (← act).mapError (Failure.host doing)

/-- Print a line. -/
def printLine (line : String) : Job Unit :=
  modify fun w => w.print (line ++ "\n")

/-- Define the command `exit`, which ends the program with a status and cannot be caught. -/
def installExit (h : HandleId) : Job Unit := do
  let id ← call (Handle.register h .exit)
  let script := "proc exit \x7b\x7bcode 0\x7d\x7d \x7b " ++ Callbacks.command id ++ " $code \x7d"
  let _ ← call (Handle.evaluate engine h script)

/-- Make an interpreter with the command `exit`. -/
def openInterpreter (settings : Settings) (safe : Bool) : Job HandleId := do
  let config := settings.interpreter
  let h ← (Worker.create { config with safe := config.safe || safe } : Act HandleId)
  installExit h
  return h

/-- Evaluate a script and print its value. -/
def evalScript (settings : Settings) (script : String) (safe : Bool) : Job Unit := do
  let h ← openInterpreter settings safe
  let result ← (Handle.evaluate engine h script : Act _)
  modify fun w => w.deleteHandle h
  let value ← call (pure result)
  if !value.isEmpty then printLine value

/-- Set a global variable. -/
def setVariable (h : HandleId) (name value : String) : Job Unit := do
  let _ ← call (Handle.run engine h (.job (.setVar name value)))

/-- Evaluate the script in a file, and then serve what it left to do. -/
def runFile (settings : Settings) (file : String) (args : List String) (noLoop safe : Bool) :
    Job Unit := do
  match Machine.readFile (← get).files file with
  | .error e => throw (.caused s!"Failed to read {file}" e.message)
  | .ok source =>
    let h ← openInterpreter settings safe
    setVariable h "argv0" file
    setVariable h "argv" (WordList.merge args)
    setVariable h "argc" (toString args.length)
    let _ ← call (Handle.evaluate engine h source) (some s!"Error in {file}")
    if !noLoop then call (EventLoop.global engine true)
    modify fun w => w.deleteHandle h

end Job

end ScriptHost.Cli
