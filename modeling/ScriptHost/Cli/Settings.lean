import ScriptHost.Interpreter
import ScriptHost.Machine.Files
import ScriptHost.Text.Letter
import ScriptHost.Toml.Parser

/-!
# Settings of the command line program

The settings come from a document in a file and from one environment variable, which has the last
word on the intervals. A setting that is not given has its default, and one that nobody knows is
ignored.
-/

namespace ScriptHost.Cli

/-- Why a command of the program failed: the message and what caused it. -/
inductive Failure
  | message (text : String)
  | caused (text cause : String)
  /-- A call on a handle failed, with what the program was doing if it says so. -/
  | host (doing : Option String) (error : HostError)
deriving DecidableEq, Repr

/-- The settings of the program. -/
structure Settings where
  globalTimerMs : Nat := 5
  interpreter : HandleConfig := {}
  /-- The file that the settings were read from. -/
  source : Option String := none
deriving DecidableEq, Repr

namespace Settings

/-- The file that is read when it exists and no other one is named. -/
def defaultFile : String := "tkbridge.toml"

/-- The environment variable that sets both intervals. -/
def timerVariable : String := "TKBRIDGE_TIMER_MS"

/-- The longest interval. -/
def maxInterval : Nat := Nat.pow 2 32 - 1

/-- The longest time to wait. -/
def maxTimeout : Nat := Nat.pow 2 64 - 1

/-- A field read in some way, or its default if it is missing. -/
def field {α : Type} (read : Toml.Value → Option α) (default : α) (name : String)
    (fields : Toml.Entries) : Option α :=
  match fields.get? name with
  | none => some default
  | some value => read value

/-- The settings of the process. -/
def readProcess (value : Toml.Value) : Option Nat := do
  let fields ← value.fields? ["global_timer_interval_ms"]
  field (·.natural? maxInterval) 5 "global_timer_interval_ms" fields

/-- The settings of interpreters. -/
def readInterpreter (value : Toml.Value) : Option HandleConfig := do
  let fields ← value.fields? ["timer_interval_ms", "wait_timeout_ms", "safe"]
  let timerMs ← field (·.natural? maxInterval) 5 "timer_interval_ms" fields
  let waitTimeoutMs ←
    field (fun v => (v.natural? maxTimeout).map some) none "wait_timeout_ms" fields
  let safe ← field (·.truth?) false "safe" fields
  return { timerMs, waitTimeoutMs, safe }

/-- The settings that a document gives. -/
def ofDocument (document : Toml.Entries) : Option Settings := do
  let globalTimerMs ← field readProcess 5 "bridge" document
  let interpreter ← field readInterpreter {} "interpreter" document
  return { globalTimerMs, interpreter }

/-- The settings in a file. -/
def ofFile (files : Machine.Files) (path : String) : Except Failure Settings :=
  match Machine.readFile files path with
  | .error e => .error (.caused s!"Failed to read {path}" e.message)
  | .ok text =>
    match (Toml.parse? text).bind ofDocument with
    | some settings => .ok { settings with source := some path }
    | none => .error (.message s!"Failed to parse {path}: not a document of settings")

/-- The settings with both intervals set as a variable says. -/
def withTimer (settings : Settings) (value : String) : Except Failure Settings :=
  match Number.decimalField 0 maxInterval (Text.trimBlanks value.toList) with
  | .ok ms =>
    .ok { settings with
      globalTimerMs := ms.toNat
      interpreter := { settings.interpreter with timerMs := ms.toNat } }
  | .error e =>
    .error (.caused s!"{timerVariable} must be a whole number of milliseconds" e.message)

/-- The settings for a run of the program: `path` names a file and `timer` is the variable. -/
def load (files : Machine.Files) (path timer : Option String) : Except Failure Settings := do
  let settings ←
    match path with
    | some path => ofFile files path
    | none =>
      if Machine.fileExists files defaultFile then ofFile files defaultFile else pure {}
  match timer with
  | some value => settings.withTimer value
  | none => return settings

end Settings

end ScriptHost.Cli
