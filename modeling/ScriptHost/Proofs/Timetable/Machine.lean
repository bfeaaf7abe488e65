import ScriptHost.Proofs.Run.Course
import ScriptHost.Proofs.World.Scripts

/-!
# The timetable of a thread

The scripts that interpreters schedule wait on the agenda of their thread, and every interpreter
knows where its own wait. The machine of this module lets interpreters be made, schedule scripts,
cancel them and be deleted, and lets the thread serve what waits, one step at a time and in any
order: so also while a script is being evaluated or an interpreter is waiting in a loop of its own.

A run keeps a record of the deeds that concern scheduled scripts, the oldest first.
-/

namespace ScriptHost

/-! ### What waits -/

namespace Agenda

/-- A script of an interpreter waits on an agenda at some place. -/
def Waits (a : Agenda Event Handler) (i : InterpId) (id : String) : AfterToken → Prop
  | .timer token => ∃ t ∈ a.timers, t.token = token ∧ t.handler.script? = some (i, id)
  | .idle token => ∃ entry ∈ a.idle, entry.1 = token ∧ entry.2.script? = some (i, id)

end Agenda

namespace World

/-- A script of an interpreter waits on the agenda of the thread that is running. -/
def IsPending (w : World) (i : InterpId) (id : String) : Prop :=
  ∃ token, w.agenda.Waits i id token

/-- The timer of a loop. -/
def keepalive? (w : World) (l : LoopId) : Option Token :=
  (w.loops.get? l).bind (·.token)

/-- A change that has nothing to do with what waits besides events: no interpreter is made or
deleted, nothing is scheduled or cancelled, and no loop gets a timer. -/
structure Passes (w w' : World) : Prop where
  current : w'.current = w.current
  registered : w'.isRegistered w.current = w.isRegistered w.current
  agenda : w'.agenda.slots = w.agenda.slots
  timetable : ∀ i, (w'.interp i).timetable = (w.interp i).timetable
  children : ∀ i, (w'.interp i).deleted = true → (w'.interp i).children = (w.interp i).children
  known : ∀ i, (w'.interps.get? i).isSome = (w.interps.get? i).isSome
  nextInterp : w'.nextInterp = w.nextInterp
  keepalive : ∀ l token, w'.keepalive? l = some token → w.keepalive? l = some token

end World

/-! ### Steps -/

namespace Timetable

/-- What happens to scheduled scripts. -/
inductive Deed
  /-- A script is scheduled, and this is its id. -/
  | scheduled (i : InterpId) (id : String)
  /-- The evaluation of a script begins. -/
  | evaluated (i : InterpId) (id : String)
  /-- Somebody asks to cancel the script with an id. -/
  | cancelled (i : InterpId) (id : String)
  | deleted (i : InterpId)
deriving DecidableEq

/-- The interpreters that are deleted on the way from one world to another. -/
def deaths (w w' : World) : List Deed :=
  (w.interps.keys.filter fun i => !(w.interp i).deleted && (w'.interp i).deleted).map .deleted

/-- What is done with a scheduled script that was taken off the agenda: its interpreter forgets it,
and if that is not deleted, it evaluates it. -/
def evaluations (w : World) (i : InterpId) (id : String) : List Deed :=
  if (w.interp i).deleted then [] else [.evaluated i id]

/-- One step of the thread, with what it does to scheduled scripts. -/
inductive Step : World → List Deed → World → Prop
  | pass {w w' : World} (h : w.Passes w') : Step w [] w'
  | schedule {w : World} {i : InterpId} (hlive : (w.interp i).deleted = false)
      (delay : Option Nat) (script : String) :
      Step w [.scheduled i (w.scheduleAfter i delay script).1] (w.scheduleAfter i delay script).2
  | cancel (w : World) (i : InterpId) (id : String) :
      Step w [.cancelled i id] (w.unschedule i id)
  /-- A scheduled script is taken off the agenda. -/
  | fire {w : World} {flags : EventFlags} {work : Agenda.Work Event Handler}
      {a : Agenda Event Handler} {i : InterpId} {id : String}
      (hnext : w.agenda.next? flags w.clock = some (work, a)) (hwork : work.script? = some (i, id)) :
      Step w (evaluations w i id) ((w.takeOff a).takeAfter i id).2
  /-- Other work is taken off the agenda. -/
  | serve {w : World} {flags : EventFlags} {work : Agenda.Work Event Handler}
      {a : Agenda Event Handler} (hnext : w.agenda.next? flags w.clock = some (work, a))
      (hwork : work.script? = none) : Step w [] (w.takeOff a)
  /-- An interpreter is deleted with what is below it and what its hooks delete. -/
  | delete (w : World) (i : InterpId) : Step w (deaths w (w.delete i)) (w.delete i)
  | create (w : World) (name : String) (safe : Bool) (parent : Option InterpId) :
      Step w [] (w.newInterp name safe parent).2
  /-- Something else is to be done at some time. -/
  | addTimer (w : World) (deadline : Time) {handler : Handler} (hhandler : handler.script? = none) :
      Step w [] (w.setAgenda (w.agenda.addTimer deadline handler).2)
  /-- Something else is to be done when the thread is idle. -/
  | addIdle (w : World) {handler : Handler} (hhandler : handler.script? = none) :
      Step w [] (w.setAgenda (w.agenda.addIdle handler).2)
  /-- Something that is no script is not to be done any more. -/
  | drop {w : World} {token : AfterToken} (htoken : ∀ i id, ¬w.agenda.Waits i id token) :
      Step w [] (w.cancelAfter token)
  | armKeepalive (w : World) (l : LoopId) : Step w [] (w.armKeepalive l)
  | stopKeepalive (w : World) (l : LoopId) : Step w [] (w.stopKeepalive l)

/-- Any number of steps. -/
inductive Run (w : World) : List Deed → World → Prop
  | start : Run w [] w
  | step {record deeds : List Deed} {w' w'' : World} (hrun : Run w record w')
      (hstep : Step w' deeds w'') : Run w (record ++ deeds) w''

theorem Run.append {record record' : List Deed} {w u w' : World} (h : Run w record u)
    (h' : Run u record' w') : Run w (record ++ record') w' := by
  induction h' with
  | start => rwa [List.append_nil]
  | step _ hstep ih =>
    rw [← List.append_assoc]
    exact .step ih hstep

end Timetable

end ScriptHost
