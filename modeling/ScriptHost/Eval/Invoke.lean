import ScriptHost.Command.Children
import ScriptHost.Command.Control
import ScriptHost.Command.Events
import ScriptHost.Command.Host
import ScriptHost.Command.Lists
import ScriptHost.Command.Procedure
import ScriptHost.Command.Strings
import ScriptHost.Command.Machine
import ScriptHost.Command.Variables

/-!
# Invoking commands and evaluating scripts
-/

namespace ScriptHost

/-- Run a built-in command. -/
def Builtin.run (e : Engine) (i : InterpId) (args : List String) : Builtin → Exec String
  | .after => Command.after e i args
  | .append => Command.append i args
  | .breakLoop => Command.leave .breaking args
  | .catchCode => Command.catchCode e i args
  | .concat => Command.concat args
  | .continueLoop => Command.leave .continuing args
  | .raise => Command.raise args
  | .expression => Command.expr e i args
  | .forLoop => Command.forLoop e i args
  | .forEach => Command.forEach e i args
  | .global => Command.global i args
  | .ifElse => Command.ifElse e i args
  | .incr => Command.incr i args
  | .info => Command.info i args
  | .interp => Command.interp e i args
  | .join => Command.join args
  | .lappend => Command.lappend i args
  | .lindex => Command.lindex args
  | .list => Command.list args
  | .llength => Command.llength args
  | .proc => Command.proc i args
  | .puts => Command.puts args
  | .returnValue => Command.returnValue args
  | .set => Command.set i args
  | .split => Command.split args
  | .string => Command.string args
  | .subst => Command.subst e i args
  | .unset => Command.unset i args
  | .update => Command.update e args
  | .vwait => Command.vwait e i args
  | .whileLoop => Command.whileLoop e i args
  | .exec => Command.exec args
  | .file => Command.file args
  | .source => Command.source e i args

/-- Run a command. -/
def Command.run (e : Engine) (i : InterpId) (name : String) (args : List String) :
    Command → Exec String
  | .builtin b => b.run e i args
  | .procedure p => p.call e i args
  | .host behaviour => Command.behave e i (name :: args) behaviour
  | .callback h => Command.hostCallback e h args
  | .evaluator h => Command.hostEval e h args

/-- Begin with a command at a depth. -/
def World.beginCommand (w : World) (i : InterpId) (name : String) (command : Command)
    (depth : Nat) : World :=
  (w.record (.invoked i name command)).modifyInterp i fun r => { r with depth := depth + 1 }

/-- Run a command one level deeper. -/
def Command.runDeeper (e : Engine) (i : InterpId) (name : String) (args : List String)
    (command : Command) (depth : Nat) : Exec String :=
  Exec.ofAct do
    modify fun w => w.beginCommand i name command depth
    Act.ensuring (command.run e i name args) fun w =>
      w.modifyInterp i fun r => { r with depth }

/-- Invoke a command by its words. -/
def invokeWords (e : Engine) (i : InterpId) : List String → Exec String
  | [] => pure ""
  | name :: args => do
    checkLive i
    let r ← getInterp i
    match r.commands.get? name with
    | none => Exec.fail s!"invalid command name \"{name}\""
    | some command =>
      if Interpreter.maxDepth ≤ r.depth then
        Exec.fail "too many nested evaluations (infinite loop?)"
      else command.runDeeper e i name args r.depth

/-- Run statements and answer the result of the last one. -/
def runStatements (e : Engine) (i : InterpId) (result : String) :
    List Script.Statement → Exec String
  | [] => pure result
  | statement :: rest => do
    let words ← substituteAll e i statement
    let result ← invokeWords e i words
    runStatements e i result rest

/-- Evaluate a script. It is read to its end before its first statement runs. -/
def evalScript (e : Engine) (i : InterpId) (source : String) : Exec String := do
  checkLive i
  match Script.parse source with
  | .error error => Exec.fail error.message
  | .ok statements => runStatements e i "" statements

end ScriptHost
