import ScriptHost.World.Create

/-!
# Actions

An action changes the state of the host and may be cut short: by a fatal signal or a panic that
unwinds, or because every thread waits for something that cannot come. What it changed before
stays.

Running scripts, commands, closures, events and turns of threads call each other without end, so
each of them is a `Task`, and an `Engine` performs the tasks that the code for one of them calls
for.
-/

namespace ScriptHost

/-- What cuts an action short. -/
inductive Halt
  | unwind (signal : FatalSignal)
  | panic (payload : PanicPayload)
  /-- Every thread waits and no deadline is left. -/
  | stalled
deriving DecidableEq, Repr

/-- Code that changes the state of the host. -/
abbrev Act := EStateM Halt World

/-- Code that may also complete abruptly, as scripts do. -/
abbrev Exec := ExceptT Abrupt Act

namespace Act

variable {α : Type}

/-- Do something to the state after an action, however that ends. -/
def ensuring (act : Act α) (after : World → World) : Act α := fun w =>
  match act w with
  | .ok a w => .ok a (after w)
  | .error halt w => .error halt (after w)

/-- An action that reports what cut it short. -/
def attempt (act : Act α) : Act (Except Halt α) := fun w =>
  match act w with
  | .ok a w => .ok (.ok a) w
  | .error halt w => .ok (.error halt) w

/-- Go on unwinding. -/
def halt (h : Halt) : Act α := throw h

/-- Unwind with a fatal signal. -/
def raise (signal : FatalSignal) : Act α := throw (.unwind signal)

/-- Begin to unwind with a fatal signal. -/
def beginUnwind (signal : FatalSignal) : Act α := do
  modify fun w => w.record (.raised signal)
  raise signal

/-- Unwind with a panic. -/
def panic (text : String) : Act α := throw (.panic (.text text))

end Act

namespace Exec

variable {α : Type}

/-- Fail with a message. -/
def fail (message : String) : Exec α := throw (.error message)

/-- Complain about the number of arguments. -/
def wrongArgs (usage : String) : Exec α := throw (.wrongArgs usage)

/-- Code that ends as a completion does. -/
def ofAct (act : Act (Except Abrupt α)) : Exec α := ExceptT.mk act

/-- The way some code ends, as a value. -/
def observe (code : Exec α) : Exec (Except Abrupt α) := ExceptT.lift code.run

/-- The result of something that needs no state. -/
def ofExcept (result : Except Abrupt α) : Exec α := ExceptT.mk (pure result)

end Exec

/-- What a host is asked to do, with the type of the answer. -/
inductive Task : Type → Type
  /-- Evaluate a script and report its completion as it is. -/
  | script (i : InterpId) (source : String) : Task Completion
  /-- Invoke a command and report its completion as it is. -/
  | words (i : InterpId) (words : List String) : Task Completion
  /-- Serve one piece of pending work. -/
  | event (flags : EventFlags) : Task Bool
  /-- Run a host closure. -/
  | closure (closure : Closure) (args : List String) : Task Outcome
  /-- Let another thread go on, and report whether it did anything. -/
  | turn (t : ThreadId) : Task Bool

/-- Performs tasks that are nested in the one at hand. -/
structure Engine where
  /-- A bound for the rounds of one loop. -/
  fuel : Nat
  call : {α : Type} → Task α → Act α

end ScriptHost
