import ScriptHost.Command.Basic
import ScriptHost.Eval.Outermost

/-!
# Commands made by the host

A command made by the host does what its behaviour says, or it calls a closure that is registered
with a handle. While a closure runs, the thread counts as being in a callback.
-/

namespace ScriptHost

namespace World

/-- Enter a callback on the thread that is running. -/
def enterCallback (w : World) : World :=
  w.modifyThread w.current fun thread => { thread with callbackDepth := thread.callbackDepth + 1 }

/-- Leave a callback on the thread that is running. -/
def leaveCallback (w : World) : World :=
  w.modifyThread w.current fun thread => { thread with callbackDepth := thread.callbackDepth - 1 }

end World

/-- Run a closure as a callback. A panic of it is an error, a fatal signal goes on unwinding. -/
def runCallback (e : Engine) (closure : Closure) (args : List String) : Act Outcome := do
  modify World.enterCallback
  let run := (e.call (.closure closure args)).attempt
  match ← run.ensuring World.leaveCallback with
  | .ok outcome => return outcome
  | .error (.panic payload) => return .error s!"host callback panicked: {payload.message}"
  | .error halt => Act.halt halt

/-- Run the closure that is registered under an id. -/
def dispatch (e : Engine) (h : HandleId) (id : String) (args : List String) :
    Act (Except HostError Outcome) := do
  match ((← get).handles.get? h).bind fun handle => handle.callbacks.find? id with
  | none => return .error (.unknownCallback id)
  | some closure => return .ok (← runCallback e closure args)

/-- The completion of an outcome; a fatal one unwinds. -/
def complete (outcome : Outcome) : Exec String :=
  Exec.ofAct do
    match outcome.completion with
    | .ok completion => return completion
    | .error signal => Act.beginUnwind signal

namespace Command

/-- Call a registered closure. -/
def hostCallback (e : Engine) (h : HandleId) : List String → Exec String
  | [] => Exec.wrongArgs "host_callback id ?arg ...?"
  | id :: args => do
    match ← (dispatch e h id args : Act _) with
    | .ok outcome => complete outcome
    | .error error => Exec.fail error.message

/-- Hand code to the evaluator of a handle. -/
def hostEval (e : Engine) (h : HandleId) : List String → Exec String
  | [code] => do
    match ((← get).handles.get? h).bind (·.evaluator) with
    | none => Exec.fail "no host evaluator installed"
    | some closure => complete (← (runCallback e closure [code] : Act _))
  | _ => Exec.wrongArgs "host_eval code"

/-- The text of a completion with its code. -/
def completionText (completion : Completion) : String :=
  s!"{completion.code.name}:{completion.value}"

/-- An argument that the host relies on. -/
def requiredArg (words : List String) (index : Nat) : Act String :=
  match words[index]? with
  | some word => pure word
  | none => Act.panic s!"index out of bounds: the len is {words.length} but the index is {index}"

/-- Do what a behaviour says; `words` begin with the name of the command. -/
def behave (e : Engine) (i : InterpId) (words : List String) : Behaviour → Exec String
  | .args => pure (WordList.merge words)
  | .complete code value =>
    if code = .ok then pure value else throw ⟨code, value⟩
  | .eval script => Exec.ofAct (evalFrom e i script)
  | .evalRaw script => e.script i script
  | .invokeArgs => Exec.ofAct (invokeFrom e i words.tail)
  | .evalCode script => do
    let completion ← (Exec.ofAct (evalFrom e i script)).observe
    return completionText completion
  | .busy => do return toString (← getInterp i).isBusy
  | .getVar => do
    let name ← requiredArg words 1
    return (← (getGlobal i name : Act _)).getD "<none>"
  | .setVar => do
    let name ← requiredArg words 1
    let value ← requiredArg words 2
    ScriptHost.setGlobal i name value
  | .unsetVar => do
    let name ← requiredArg words 1
    let existed ← (unsetGlobal i name : Act _)
    return toString existed
  | .deleteCommand => do
    let name ← requiredArg words 1
    let existed := (← getInterp i).commands.contains name
    updateInterp i fun r => { r with commands := r.commands.erase name }
    return toString existed
  | .log => do
    modify fun w => w.addLog (WordList.merge words)
    return ""
  | .delete => do
    modify fun w => w.delete i
    return "deleted"

end Command

end ScriptHost
