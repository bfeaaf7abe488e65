import ScriptHost.Command.Events
import ScriptHost.Handle.Call

/-!
# Serving pending work

One call serves at most one piece of work. A loop serves piece after piece until its condition
holds; its keepalive timer bounds how long it waits, and at the end it serves what is queued
without waiting.
-/

namespace ScriptHost

namespace World

/-- The interval of a loop in milliseconds. -/
def intervalMs (w : World) : Interval → Nat
  | .fixed ms => ms
  | .handle h => ((w.handles.get? h).map (·.timerMs)).getD 0
  | .hub => w.hub.globalTimerMs

/-- Change a loop. -/
def modifyLoop (w : World) (l : LoopId) (f : Loop → Loop) : World :=
  { w with loops := w.loops.modify l f }

/-- Arm the keepalive timer of a loop; a stopped loop or one without interval has none. -/
def armKeepalive (w : World) (l : LoopId) : World :=
  match w.loops.get? l with
  | none => w
  | some loop =>
    let ms := w.intervalMs loop.interval
    if !loop.active || ms = 0 then w.modifyLoop l fun loop => { loop with token := none }
    else
      let (token, agenda) := w.agenda.addTimer (w.clock + milliseconds ms) (.keepalive l)
      (w.setAgenda agenda).modifyLoop l fun loop => { loop with token := some token }

/-- Arm the keepalive timer of a loop unless it is pending. -/
def ensureArmed (w : World) (l : LoopId) : World :=
  match (w.loops.get? l).bind (·.token) with
  | some _ => w
  | none => w.armKeepalive l

/-- Stop the keepalive timer of a loop for good. -/
def stopKeepalive (w : World) (l : LoopId) : World :=
  match w.loops.get? l with
  | none => w
  | some loop =>
    let w := w.modifyLoop l fun loop => { loop with active := false, token := none }
    match loop.token with
    | some token => w.setAgenda (w.agenda.cancelTimer token).2
    | none => w

/-- A new loop that does not run yet. -/
def newLoop (w : World) (interval : Interval) : LoopId × World :=
  (w.nextLoop,
    { w with
      loops := w.loops.insert w.nextLoop { interval }
      nextLoop := w.nextLoop + 1 })

/-- Set how far a loop is. -/
def setPhase (w : World) (l : LoopId) (phase : LoopPhase) : World :=
  w.modifyLoop l fun loop => { loop with phase }

/-- Count that a loop asks for its condition. -/
def countAsk (w : World) (l : LoopId) : World :=
  w.modifyLoop l fun loop => { loop with asks := loop.asks + 1 }

/-- How often a loop has asked for its condition. -/
def asksOf (w : World) (l : LoopId) : Nat :=
  ((w.loops.get? l).map (·.asks)).getD 0

end World

/-! ### One piece of work -/

/-- Run a scheduled script. Its error goes to the command `bgerror` if there is one. -/
def runAfter (e : Engine) (i : InterpId) (id script : String) : Act Unit := do
  modify fun w => (w.takeAfter i id).2
  if (← getInterp i).deleted then return
  match ← evalAtGlobal e i script with
  | .ok _ => return
  | .error end_ =>
    if (← getInterp i).commands.contains "bgerror" then
      let _ ← invokeFrom e i ["bgerror", end_.value]

/-- Do what a timer or an idle handler does. -/
def runHandler (e : Engine) : Handler → Act Unit
  | .after i id script => runAfter e i id script
  | .keepalive l => modify fun w => w.armKeepalive l
  | .delete i => modify fun w => w.delete i
  | .label i label script => do
    modify fun w => w.addLog label
    match script with
    | none => return
    | some script =>
      let completion ← evalFrom e i script
      modify fun w => w.addLog (Command.completionText completion)

/-- Do what an event asks for. -/
def runEvent (e : Engine) : Event → Act Unit
  | .serve h => Handle.serveOne e h
  | .release h pending => Handle.releaseHere e h pending
  | .delete h => modify fun w => w.giveUp h
  | .print label => modify fun w => w.print s!"{label};"

/-- Do a piece of work that was taken off the agenda. -/
def runWork (e : Engine) : Agenda.Work Event Handler → Act Unit
  | .event event => runEvent e event
  | .timer handler => runHandler e handler
  | .idle handler => runHandler e handler

/-- Serve one piece of work if there is any. Serving takes a tick of the clock. -/
def serveReady (e : Engine) (flags : EventFlags) : Act Bool := do
  let w ← get
  match w.agenda.next? flags w.clock with
  | none => return false
  | some (work, agenda) =>
    set { w.setAgenda agenda with clock := w.clock + 1 }
    runWork e work
    return true

/-- Wait until the thread is alerted or a timer is due that the flags cover. -/
def waitForWork (e : Engine) (flags : EventFlags) : Act Unit := do
  let w ← get
  if w.agenda.events.isEmpty then
    let deadline := if flags.contains .timer then w.agenda.nextDeadline? else none
    let t := w.current
    waitUntil e (fun w => (w.agendaOf t).alerted) (fun _ => false) deadline
    modify fun w => w.modifyAgenda t fun a => { a with alerted := false }

/-- Serve one piece of work and answer whether there was any. Unless the flags forbid it, wait once
for some. -/
def oneEvent (e : Engine) (flags : EventFlags) : Act Bool := do
  let flags := flags.normalize
  if ← serveReady e flags then return true
  else if flags.contains .dontWait then return false
  else
    waitForWork e flags
    serveReady e flags

/-! ### Loops -/

/-- Stop a fatal signal outside of host closures. -/
def catchFatal {α : Type} (act : Act (Except HostError α)) : Act (Except HostError α) := do
  match ← act.attempt with
  | .ok result => return result
  | .error (.unwind signal) =>
    if (← get).inCallback then Act.raise signal else return .error (.fatal signal)
  | .error halt => Act.halt halt

/-- Serve one piece of work as a call of the host. -/
def processOneEvent (e : Engine) (flags : EventFlags) : Act (Except HostError Bool) :=
  catchFatal do return .ok (← oneEvent e flags)

namespace EventLoop

/-- Serve pieces of work until a condition holds, for a number of rounds. -/
def rounds (e : Engine) (l : LoopId) (done : Act Bool) : Nat → Act (Except HostError Unit)
  | 0 => Act.halt .stalled
  | count + 1 => do
    modify fun w => w.countAsk l
    if ← done then return .ok ()
    else if (← get).hub.interrupted then return .error (.fatal .interrupt)
    else
      modify fun w => w.ensureArmed l
      let _ ← oneEvent e .all
      rounds e l done count

/-- Serve posted events without waiting until none is left, for a number of rounds. -/
def drain (e : Engine) : Nat → Act (Except HostError Unit)
  | 0 => Act.halt .stalled
  | count + 1 => do
    if ← oneEvent e (EventFlags.posted.union .dontWait) then drain e count else return .ok ()

/-- What a loop does after its rounds ended with some result. -/
def close (e : Engine) (l : LoopId) (result : Except HostError Unit) :
    Act (Except HostError Unit) := do
  modify fun w => w.stopKeepalive l
  let result ←
    match result with
    | .error error => pure (.error error)
    | .ok () => do
      modify fun w => w.setPhase l .draining
      catchFatal (drain e e.fuel)
  modify fun w => w.setPhase l .stopped
  return result

/-- Run a loop until a condition holds. An interrupt or a fatal signal ends it with an error. -/
def runLoop (e : Engine) (l : LoopId) (done : Act Bool) : Act (Except HostError Unit) := do
  modify fun w => w.setPhase l .running
  let result ← catchFatal (rounds e l done e.fuel)
  close e l result

/-- Run a new loop until a condition holds. -/
def run (e : Engine) (interval : Interval) (done : Act Bool) : Act (Except HostError Unit) := do
  let (l, w) := (← get).newLoop interval
  set w
  runLoop e l done

/-- Whether the loop of a handle is to return; a request to stop is used up. -/
def handleDone (h : HandleId) : Act Bool := do
  let w ← get
  match w.handles.get? h with
  | none => return true
  | some handle =>
    if handle.deleted then return true
    else
      set (w.modifyHandle h fun handle => { handle with stopRequested := false })
      return handle.stopRequested

/-- Run the loop of a handle on its owning thread until it is deleted or asked to stop. -/
def ofHandle (e : Engine) (h : HandleId) : Act (Except HostError Unit) := do
  let w ← get
  if !w.onOwner h then
    return .error (.invalidArgument "run_loop must be called on the owning thread")
  else if w.isDeleted h then return .error .deleted
  else run e (.handle h) (handleDone h)

/-- Run the loop of the thread: until nothing is pending, or until it is asked to stop. -/
def global (e : Engine) (untilIdle : Bool) : Act (Except HostError Unit) :=
  if untilIdle then
    run e (.fixed 0) do return !(← get).agenda.hasPending
  else
    run e .hub do
      let w ← get
      set { w with hub := { w.hub with globalStop := false } }
      return w.hub.globalStop

end EventLoop

end ScriptHost
