import ScriptHost.EventLoop

/-!
# Threads besides the one of the host

A worker is a thread that owns an interpreter and runs its loop. It takes a turn whenever another
thread waits. Other threads only make calls for the host.
-/

namespace ScriptHost

namespace World

/-- Delete the interpreters that a thread still owns. -/
def deleteOrphans (w : World) (t : ThreadId) : World :=
  let orphans := w.handles.entries.filterMap fun (h, handle) =>
    if handle.owner = t then handle.interp.map fun i => (h, i) else none
  orphans.foldl (fun w (h, i) => ((w.takeInterp h).2).delete i) w

/-- Release the handles that a thread held for children made by scripts. -/
def unpinAll (w : World) (t : ThreadId) : World :=
  w.handles.entries.foldl (fun w (h, handle) =>
    if handle.owner = t then w.modifyHandle h fun handle => { handle with pinned := false }
    else w) w

/-- The work of released handles in posted events. -/
def releasedWork (events : List Event) : List Queued :=
  events.flatMap fun event =>
    match event with
    | .release _ pending => pending
    | _ => []

/-- End a thread: it deletes its interpreters, and nobody serves its agenda any more. -/
def endThread (w : World) (t : ThreadId) : World :=
  let ended := ({ w with current := t }.deleteOrphans t).unpinAll t
  let ended := ended.loseReplies (releasedWork (ended.agendaOf t).events)
  { ended with current := w.current, threads := ended.threads.erase t }

end World

/-- Do something as a thread, while the thread that was running waits. -/
def asThread {α : Type} (t : ThreadId) (act : Act α) : Act α := fun w =>
  let enter (w : World) : World := { w with current := t, engaged := t :: w.engaged }
  let leave (w' : World) : World := { w' with current := w.current, engaged := w.engaged }
  act.ensuring leave (enter w)

namespace Worker

/-- End a worker with the result of its loop. -/
def finish (e : Engine) (t : ThreadId) (h : HandleId) (result : Except HostError Unit) :
    Act Unit := do
  modify fun w => w.deleteHandle h
  modify fun w => { w.endThread t with results := w.results.insert t result }
  Handle.release e h

/-- A panic ends a worker as it stands. -/
def crash (e : Engine) (t : ThreadId) (h : HandleId) : Act Unit := do
  let result := .error (.eval "interpreter thread panicked")
  modify fun w => { w.endThread t with results := w.results.insert t result }
  Handle.release e h

/-- End the loop of a worker. -/
def close (e : Engine) (t : ThreadId) (h : HandleId) (l : LoopId)
    (result : Except HostError Unit) : Act Unit := do
  match ← (EventLoop.close e l result).attempt with
  | .ok result => finish e t h result
  | .error .stalled => Act.halt .stalled
  | .error _ => crash e t h

/-- One round of the loop of a worker that does not wait. -/
def round (e : Engine) (t : ThreadId) (h : HandleId) (l : LoopId) : Act Bool := do
  modify fun w => w.countAsk l
  if ← EventLoop.handleDone h then
    close e t h l (.ok ())
    return true
  else if (← get).hub.interrupted then
    close e t h l (.error (.fatal .interrupt))
    return true
  else
    modify fun w => w.ensureArmed l
    match ← (serveReady e .all).attempt with
    | .ok served => return served
    | .error (.unwind signal) =>
      close e t h l (.error (.fatal signal))
      return true
    | .error (.panic _) =>
      crash e t h
      return true
    | .error .stalled => Act.halt .stalled

/-- Serve an event of the thread of the host, and keep the error that it ends with. -/
def serve (e : Engine) (t : ThreadId) : Act Bool := do
  match ← processOneEvent e (EventFlags.posted.union .dontWait) with
  | .ok served => return served
  | .error error =>
    modify fun w => w.modifyThread t fun thread =>
      match thread.role with
      | .serving errors => { thread with role := .serving (errors ++ [error]) }
      | _ => thread
    return true

/-- Let a thread do something. -/
def turn (e : Engine) (t : ThreadId) : Act Bool := do
  match (← get).threads.get? t with
  | some { role := .serving _, .. } => asThread t (serve e t)
  | some { role := .looping h l, .. } => asThread t (round e t h l)
  | _ => return false

/-- Make an interpreter and its handle on the thread that is running. -/
def create (config : HandleConfig) : Act HandleId := do
  let (i, w) := (← get).newInterp "" config.safe none
  let (h, w) := w.adopt i config
  set (w.hold h)
  return h

/-- Start a worker. The handle is held by the worker, by whoever stops it and by the caller. -/
def spawn (config : HandleConfig) : Act HandleId := do
  let (t, w) := (← get).newThread
  set w
  asThread t do
    let h ← create config
    modify fun w =>
      let (l, w) := w.newLoop (.handle h)
      (((w.setPhase l .running).hold h).hold h).modifyThread t fun thread => { thread with role := .looping h l }
    return h

/-- Stop a worker and wait for its end. -/
def shutdown (e : Engine) (t : ThreadId) (h : HandleId) : Act (Except HostError Unit) := do
  Handle.stopLoop h
  waitUntil e (fun w => (w.results.get? t).isSome) (fun _ => false) none
  let result := ((← get).results.get? t).getD (.ok ())
  Handle.release e h
  return result

end Worker

end ScriptHost
