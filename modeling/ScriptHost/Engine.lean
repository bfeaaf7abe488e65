import ScriptHost.Eval.Invoke
import ScriptHost.HostCode
import ScriptHost.Worker

/-!
# The engine

Ties the tasks together: each is performed by an engine whose fuel is one less. `run` starts with
more fuel than any computation uses up.
-/

namespace ScriptHost

/-- Perform a task with an engine for the tasks nested in it. -/
def perform (e : Engine) {α : Type} : Task α → Act α
  | .script i source => evalScript e i source
  | .words i words => invokeWords e i words
  | .event flags => oneEvent e flags
  | .closure closure args => do
    modify fun w => w.record (.ran closure)
    closure.run e args
  | .turn t => Worker.turn e t

/-- Perform a task with a bound on the nesting of tasks. -/
def runWithin : Nat → {α : Type} → Task α → Act α
  | 0, _, _ => Act.halt .stalled
  | fuel + 1, _, task => perform ⟨fuel, runWithin fuel⟩ task

/-- The bound on nesting that stands for none. -/
def ampleFuel : Nat := 4611686018427387904

/-- The engine with all the fuel. -/
def engine : Engine := ⟨ampleFuel, runWithin ampleFuel⟩

end ScriptHost
