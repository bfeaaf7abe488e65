import ScriptHost.Proofs.Callbacks.Engine

/-!
# Calls on a registry of closures

Closures are registered, removed and called, and a closure that is called may itself register and
remove closures. Each call is answered from the changes behind it: ids are fresh, and an id runs the
closure that was registered under it until that is removed.
-/

namespace ScriptHost

open World
open Callbacks (Change Stored registered issued idOf)

/-- Some changes led to the registry of a handle, and further handles do not get in its way. -/
structure World.HasPast (w : World) (h : HandleId) (past : List Change) : Prop where
  numbered : w.HandlesNumbered
  registry : w.registryOf h = some (Callbacks.replay {} past)

/-- A call on the registry of a handle. -/
inductive RegistryCall
  | register (closure : Closure)
  | unregister (id : String)
  | clear
  | dispatch (id : String) (args : List String)
  | ids

/-- What a call on a registry answers. -/
inductive RegistryAnswer
  | id (id : String)
  | done
  | result (result : Except HostError Outcome)
  /-- The closure was cut short. -/
  | halted (halt : Halt)
  | ids (ids : List String)

namespace RegistryCall

/-- Make a change of a registry. -/
def change (h : HandleId) (change : Change) : Act RegistryAnswer := do
  modify fun w => w.changeRegistry h change
  return .done

/-- Make a call. -/
def run (e : Engine) (h : HandleId) : RegistryCall → Act RegistryAnswer
  | .register closure => do
    let registry := ((← get).registryOf h).getD {}
    let _ ← change h (.register closure)
    return .id (registry.register closure).1
  | .unregister id => change h (.unregister id)
  | .clear => change h .clear
  | .dispatch id args => do
    match ← (ScriptHost.dispatch e h id args).attempt with
    | .ok result => return .result result
    | .error halt => return .halted halt
  | .ids => return .ids (((← get).registryOf h).getD {}).ids

/-- Make calls one after the other. -/
def runAll (e : Engine) (h : HandleId) : List RegistryCall → Act (List RegistryAnswer)
  | [] => return []
  | call :: calls => do return (← call.run e h) :: (← runAll e h calls)

/-- How a call is answered by the registry of a handle that some changes led to, and the changes that
are made meanwhile. -/
inductive Answers (e : Engine) (h : HandleId) (past : List Change) :
    World → RegistryCall → RegistryAnswer → List Change → World → Prop
  | register (closure : Closure) (w : World) :
      Answers e h past w (.register closure) (.id (idOf ((registered past).length + 1)))
        [.register closure] (w.changeRegistry h (.register closure))
  | unregister (id : String) (w : World) :
      Answers e h past w (.unregister id) .done [.unregister id] (w.changeRegistry h (.unregister id))
  | clear (w : World) : Answers e h past w .clear .done [.clear] (w.changeRegistry h .clear)
  | runs {k : Nat} {closure : Closure} {args : List String} {outcome : Outcome} {made : List Change}
      {w w' : World} (hstored : Stored past k closure)
      (hrun : runCallback e closure args w = .ok outcome w') (hmade : Undergoes h made w w') :
      Answers e h past w (.dispatch (idOf k) args) (.result (.ok outcome)) made w'
  | halts {k : Nat} {closure : Closure} {args : List String} {halt : Halt} {made : List Change}
      {w w' : World} (hstored : Stored past k closure)
      (hrun : runCallback e closure args w = .error halt w') (hmade : Undergoes h made w w') :
      Answers e h past w (.dispatch (idOf k) args) (.halted halt) made w'
  | unknown {id : String} (hnone : ∀ k closure, Stored past k closure → idOf k ≠ id)
      (args : List String) (w : World) :
      Answers e h past w (.dispatch id args) (.result (.error (.unknownCallback id))) [] w
  | ids {numbers : List Nat} (hsorted : numbers.Pairwise (· < ·))
      (hnumbers : ∀ k, k ∈ numbers ↔ ∃ closure, Stored past k closure) (w : World) :
      Answers e h past w .ids (.ids (numbers.map idOf)) [] w

/-- How calls are answered one after the other, each with all the changes behind it that were made
before, and the changes that led to the registry in the end. -/
inductive Course (e : Engine) (h : HandleId) :
    List Change → World → List RegistryCall → List RegistryAnswer → List Change → World → Prop
  | nil {past : List Change} {w : World} (hpast : w.HasPast h past) : Course e h past w [] [] past w
  | cons {past made history : List Change} {call : RegistryCall} {answer : RegistryAnswer}
      {calls : List RegistryCall} {answers : List RegistryAnswer} {w u w' : World}
      (hpast : w.HasPast h past) (hfirst : Answers e h past w call answer made u)
      (hrest : Course e h (past ++ made) u calls answers history w') :
      Course e h past w (call :: calls) (answer :: answers) history w'

variable {e : Engine} {h : HandleId} {past : List Change} {w : World}

end RegistryCall

end ScriptHost
