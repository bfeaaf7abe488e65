import ScriptHost.Number.Shortest
import ScriptHost.Outcome

/-!
# Host closures

The code that a host registers with its interpreters, as data. A closure names the handles it uses
by the names under which the host keeps them, and they are looked up when it runs.
-/

namespace ScriptHost

/-- Why an error was reported: a message, or an error of a call on a handle. -/
inductive Cause
  | message (text : String)
  | host (error : HostError)
deriving DecidableEq, Repr

/-- A value that host code may return instead of an outcome. -/
inductive HostValue
  | unit
  | text (value : String)
  | truth (value : Bool)
  | integer (value : Int)
  | real (value : Float)
  | optional (value : Option String)
  | signal (signal : FatalSignal)
  | host (error : HostError)
  | report (contexts : List String) (cause : Cause)

/-- The outcome that a value stands for. A report reads from the outermost context to the cause,
but the error of a call keeps its own text and a fatal signal stays one. -/
def HostValue.outcome : HostValue → Outcome
  | .unit => .normal none
  | .text value => .normal (some value)
  | .truth value => .normal (some (if value then "1" else "0"))
  | .integer value => .normal (some (toString value))
  | .real value => .normal (some (Number.realText value))
  | .optional value => .normal value
  | .signal s => .fatal s
  | .host e => e.outcome
  | .report _ (.host e) => e.outcome
  | .report contexts (.message m) => .error (": ".intercalate (contexts.reverse ++ [m]))

/-- What a panic carries: a text, or something that cannot be shown. -/
inductive PanicPayload
  | text (value : String)
  | other
deriving DecidableEq, Repr

/-- What is reported of a panic. -/
def PanicPayload.message : PanicPayload → String
  | .text value => value
  | .other => "unknown error"

/-- Host code. -/
inductive Closure
  /-- Finish with an outcome. -/
  | outcome (outcome : Outcome)
  /-- Return a value. -/
  | value (value : HostValue)
  /-- Return the number of arguments. -/
  | count
  /-- Return the arguments with a text between them. -/
  | join (separator : String)
  /-- Return twice the first argument. -/
  | double
  /-- Request the end of the process with the status in the first argument. -/
  | exit
  /-- Write the arguments to the log. -/
  | log
  /-- Tell whether host code is running on this thread. -/
  | inCallback
  /-- Panic. -/
  | panic (payload : PanicPayload)
  /-- Run the case that the first argument names. -/
  | switch (cases : List (String × Closure)) (default : Option Closure)
  /-- Run several closures up to the first that does not finish normally. -/
  | seq (parts : List Closure)
  /-- Evaluate a script and pass its error on, or return a text whatever happens. -/
  | eval (target script : String) (ignore : Bool)
  /-- Evaluate a script and finish as it does, or return a text whatever happens. -/
  | evalOutcome (target script : String) (ignore : Bool)
  /-- Invoke the arguments as a command. -/
  | invokeArgs (target : String)
  /-- Register a closure. -/
  | register (target : String) (closure : Closure)
  /-- Remove a registered closure. -/
  | unregister (target id : String)
  /-- Delete the interpreter. -/
  | delete (target : String)
  /-- Let the handle go. -/
  | drop (target : String)
  /-- Ask the loop of a handle to return. -/
  | stopLoop (target : String)
  /-- Ask the global loop to return. -/
  | stopGlobal
  /-- Raise the interrupt flag. -/
  | interrupt
deriving Inhabited

end ScriptHost
