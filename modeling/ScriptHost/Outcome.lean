import ScriptHost.Completion

/-!
# Outcomes and errors of host code

Host code says how it finished with an `Outcome`. A fatal signal among them is no completion: it
unwinds the evaluation. What the calls on a handle answer is a value or a `HostError`.
-/

namespace ScriptHost

/-- A signal that ends the process unless the host stops it. -/
inductive FatalSignal
  | interrupt
  | exit (code : Int)
deriving DecidableEq, Repr

/-- The text of a signal. -/
def FatalSignal.message : FatalSignal → String
  | .interrupt => "interrupt"
  | .exit code => s!"exit({code})"

/-- How host code finished. -/
inductive Outcome
  | normal (value : Option String)
  | breaking
  | continuing
  | returning (value : Option String)
  | error (message : String)
  | fatal (signal : FatalSignal)
deriving DecidableEq, Repr

/-- The completion of an outcome that is not fatal. -/
def Outcome.completion : Outcome → Except FatalSignal Completion
  | .normal value => .ok (.ok (value.getD ""))
  | .breaking => .ok (.error ⟨.breaking, ""⟩)
  | .continuing => .ok (.error ⟨.continuing, ""⟩)
  | .returning value => .ok (.error ⟨.returning, value.getD ""⟩)
  | .error message => .ok (.fail message)
  | .fatal signal => .error signal

/-- The outcome of a completion. -/
def Outcome.ofCompletion : Completion → Outcome
  | .ok value => .normal (some value)
  | .error e =>
    match e.code with
    | .ok => .normal (some e.value)
    | .error => .error e.value
    | .returning => .returning (some e.value)
    | .breaking => .breaking
    | .continuing => .continuing

/-- Whether an outcome lets a sequence of host code go on. -/
def Outcome.isNormal : Outcome → Bool
  | .normal _ => true
  | _ => false

/-- Why a call on a handle failed. -/
inductive HostError
  | initialization (text : String)
  | eval (text : String)
  | invalidArgument (text : String)
  | deleted
  | unknownCallback (id : String)
  | timeout
  | ownerGone
  | fatal (signal : FatalSignal)
deriving DecidableEq, Repr

namespace HostError

/-- The text of an error. -/
def message : HostError → String
  | .initialization text => s!"Initialization failed: {text}"
  | .eval text => text
  | .invalidArgument text => s!"Invalid argument: {text}"
  | .deleted => "Interpreter has been deleted"
  | .unknownCallback id => s!"Unknown callback id: {id}"
  | .timeout => "Timed out waiting for the owning thread"
  | .ownerGone => "Owning thread exited before serving the command"
  | .fatal signal => s!"Fatal signal: {signal.message}"

/-- Whether an error carries a fatal signal. -/
def isFatal : HostError → Bool
  | .fatal _ => true
  | _ => false

/-- The error of an abrupt completion: codes for loops and procedures have no place outside. -/
def ofAbrupt (e : Abrupt) : HostError :=
  match e.code with
  | .error => .eval e.value
  | code => .eval (Abrupt.outsideLoop code).value

/-- The outcome of host code that passes an error on. -/
def outcome : HostError → Outcome
  | .fatal signal => .fatal signal
  | e => .error e.message

end HostError

/-- Failures of the machinery under the interpreters. -/
inductive RuntimeFault
  | notInitialized
  | noEventQueue (thread : String)
  | creation (reason : String)
deriving DecidableEq, Repr

/-- The text of a failure. -/
def RuntimeFault.message : RuntimeFault → String
  | .notInitialized => "interpreter runtime not initialized"
  | .noEventQueue thread => s!"no notifier registered for thread {thread}"
  | .creation reason => s!"failed to create interpreter: {reason}"

/-- A failure as the error of a call on a handle. -/
def HostError.ofFault : RuntimeFault → HostError
  | .noEventQueue _ => .ownerGone
  | fault => .initialization fault.message

/-- The result of executing a command of a handle: its text if it has one. A `return` that comes
out of a nested evaluation is a normal end. -/
def Completion.settle : Completion → Except HostError (Option String)
  | .ok value => .ok (some value)
  | .error e => if e.code = .returning then .ok (some e.value) else .error (.ofAbrupt e)

end ScriptHost
