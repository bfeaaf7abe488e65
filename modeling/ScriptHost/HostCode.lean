import ScriptHost.Handle.Call

/-!
# Running host closures
-/

namespace ScriptHost

namespace Closure

/-- The handle that the host keeps under a name. -/
def target (name : String) : Act HandleId := do
  match (← get).names.get? name with
  | some h => return h
  | none => Act.panic s!"no interpreter named {name}"

/-- The outcome of a call on a handle. -/
def outcomeOf {α : Type} (value : α → Outcome) : Except HostError α → Outcome
  | .ok a => value a
  | .error error => error.outcome

/-- The outcome of a call whose result is not looked at. -/
def ignored : Outcome := .normal (some "ignored")

/-- Twice the number that a text spells. -/
def doubled (text : String) : Outcome :=
  match Number.decimalField (-(Nat.pow 2 63 : Int)) (Nat.pow 2 63 - 1) text.toList with
  | .ok n => .normal (some (Number.integerText (2 * Int64.ofInt n)))
  | .error error => .error error.message

/-- The request to end the process with the status that a text spells. -/
def exitWith (text : String) : Outcome :=
  match Number.decimalField (-(Nat.pow 2 31 : Int)) (Nat.pow 2 31 - 1) text.toList with
  | .ok n => .fatal (.exit n)
  | .error _ => .error s!"expected integer but got \"{text}\""

/-- Run closures up to the first that does not finish normally. -/
def runAll (e : Engine) (args : List String) (last : Outcome) : List Closure → Act Outcome
  | [] => return last
  | closure :: rest => do
    let result ← e.call (.closure closure args)
    if result.isNormal then runAll e args result rest else return result

/-- The case of a switch that a text selects. -/
def caseOf (cases : List (String × Closure)) (default : Option Closure) (key : Option String) :
    Option Closure :=
  (key.bind fun key => (cases.find? (·.1 == key)).map (·.2)) <|> default

/-- Run a closure. -/
def run (e : Engine) (args : List String) : Closure → Act Outcome
  | .outcome o => return o
  | .value v => return v.outcome
  | .count => return .normal (some (toString args.length))
  | .join separator => return .normal (some (separator.intercalate args))
  | .double => return doubled (args.headD "")
  | .exit => return exitWith (args.headD "0")
  | .log => do
    modify fun w => w.addLog ("|".intercalate args)
    return .normal none
  | .inCallback => do return (HostValue.truth (← get).inCallback).outcome
  | .panic payload => Act.halt (.panic payload)
  | .switch cases other =>
    match caseOf cases other args.head? with
    | some closure => e.call (.closure closure args)
    | none => return .normal none
  | .seq parts => runAll e args (.normal none) parts
  | .eval name script ignore => do
    let result ← Handle.evaluate e (← target name) script
    return if ignore then ignored else outcomeOf (fun value => .normal (some value)) result
  | .evalOutcome name script ignore => do
    let result ← Handle.evaluateOutcome e (← target name) script
    return if ignore then ignored else outcomeOf id result
  | .invokeArgs name => do
    let result ← Handle.invoke e (← target name) args
    return outcomeOf (fun value => .normal (some value)) result
  | .register name closure => do
    let result ← Handle.register (← target name) closure
    return outcomeOf (fun id => .normal (some id)) result
  | .unregister name id => do
    let result ← Handle.unregister (← target name) id
    return outcomeOf (fun _ => .normal none) result
  | .delete name => do
    let h ← target name
    modify fun w => w.deleteHandle h
    return .normal (some "deleted")
  | .drop name => do
    let h ← target name
    modify fun w => { w with names := w.names.erase name }
    Handle.release e h
    return .normal (some "dropped")
  | .stopLoop name => do
    Handle.stopLoop (← target name)
    return .normal none
  | .stopGlobal => do
    Hub.stopLoop
    return .normal none
  | .interrupt => do
    Hub.interrupt
    return .normal none

end Closure

end ScriptHost
