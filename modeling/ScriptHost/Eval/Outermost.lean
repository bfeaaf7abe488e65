import ScriptHost.Eval.Substitute

/-!
# Evaluation from outside

Host code and event handlers evaluate scripts as outermost ones, unless the interpreter is already
running a command: then they see the completion as it is.
-/

namespace ScriptHost

/-- The completion that an evaluation from outside reports. -/
def finish (i : InterpId) (completion : Completion) : Act Completion := do
  if (← getInterp i).isBusy then return completion else return completion.outermost

/-- Evaluate a script from outside. -/
def evalFrom (e : Engine) (i : InterpId) (source : String) : Act Completion := do
  finish i (← e.call (.script i source))

/-- Invoke a command from outside. -/
def invokeFrom (e : Engine) (i : InterpId) (words : List String) : Act Completion := do
  finish i (← e.call (.words i words))

/-- Put the frames of procedures back on top of those that are there. -/
def restoreFrames (i : InterpId) (saved : List Frame) (w : World) : World :=
  w.modifyInterp i fun r => r.restoreCalls saved

/-- Evaluate a script from outside with the global frame only. -/
def evalAtGlobal (e : Engine) (i : InterpId) (source : String) : Act Completion := do
  let r ← getInterp i
  if r.frames.isEmpty then
    Act.panic "\x60at\x60 split index (is 1) should be <= len (is 0)"
  else
    updateInterp i Interpreter.dropCalls
    (evalFrom e i source).ensuring (restoreFrames i r.callFrames)

end ScriptHost
