import ScriptHost.Command.Host
import ScriptHost.Schedule

/-!
# Work on the owning thread

Queued work is taken out of the mailbox one piece at a time and executed on the thread that owns
the interpreter. When the last holder of a handle goes, what is still queued is served first and
then the interpreter is deleted, or scheduled for deletion if a command of it is running.
-/

namespace ScriptHost

namespace World

/-- The interpreter of a handle, as long as the owning thread keeps it. -/
def interpOf? (w : World) (h : HandleId) : Option InterpId :=
  (w.handles.get? h).bind (·.interp)

/-- Take the interpreter of a handle away from the owning thread. -/
def takeInterp (w : World) (h : HandleId) : Option InterpId × World :=
  (w.interpOf? h, w.modifyHandle h fun handle => { handle with interp := none })

/-- Delete an interpreter, or schedule that if a command is running in it. -/
def deleteInterp (w : World) (i : InterpId) : World :=
  if (w.interp i).isBusy then w.setAgenda (w.agenda.addIdle (.delete i)).2 else w.delete i

/-- Give up the interpreter of a handle. -/
def giveUp (w : World) (h : HandleId) : World :=
  match w.takeInterp h with
  | (some i, w) => w.deleteInterp i
  | (none, w) => w

/-- Whether the thread that is running owns a handle. -/
def onOwner (w : World) (h : HandleId) : Bool :=
  match w.handles.get? h with
  | some handle => handle.owner = w.current
  | none => false

/-- Delete the interpreter of a handle. On another thread the handle is deleted at once and the
interpreter when its owner serves the event. -/
def deleteHandle (w : World) (h : HandleId) : World :=
  match w.handles.get? h with
  | none => w
  | some handle =>
    if handle.deleted then w
    else if w.onOwner h then (w.giveUp h).markDeleted h
    else (w.markDeleted h).post handle.owner (.delete h)

/-- Let the callers of work know that nobody will serve it. -/
def loseReplies (w : World) (pending : List Queued) : World :=
  pending.foldl (fun w queued =>
    match queued.reply with
    | some r => { w with replies := w.replies.modify r fun reply => { reply with lost := true } }
    | none => w) w

/-- Count a holder of a handle. -/
def hold (w : World) (h : HandleId) : World :=
  w.modifyHandle h fun handle => { handle with holders := handle.holders + 1 }

/-- Count a piece of work of a handle that is executed in place. -/
def startWork (w : World) (h : HandleId) : World :=
  w.modifyHandle h fun handle => { handle with mailbox := handle.mailbox.submit }

/-- Take the oldest work of a handle out of its mailbox. The handle is held as long as the work is
executed. -/
def takeWork? (w : World) (h : HandleId) : Option (Queued × World) :=
  match w.handles.get? h with
  | none => none
  | some handle =>
    if handle.exists then
      handle.mailbox.pop?.map fun (queued, mailbox) =>
        (queued, (w.modifyHandle h fun handle => { handle with mailbox }).hold h)
    else none

/-- Whether the caller of some work has given up. -/
def isAbandoned (w : World) (queued : Queued) : Bool :=
  match queued.reply.bind w.replies.get? with
  | some reply => reply.abandoned
  | none => false

/-- One holder of a handle goes. -/
def unhold (w : World) (h : HandleId) : World :=
  w.modifyHandle h fun handle => { handle with holders := handle.holders - 1 }

/-- Let the handle of a new child go, to which nothing was handed yet. -/
def discard (w : World) (h : HandleId) : World :=
  let w := w.unhold h
  match w.handles.get? h with
  | none => w
  | some handle => if handle.exists || handle.deleted then w else (w.unregister h).giveUp h

/-- Answer work that outlived its handle; a handle that nobody waits for any more is let go. -/
def answerDetached (w : World) (queued : Queued) (envelope : Envelope) : World :=
  let answered := w.answerQueued queued envelope
  match envelope with
  | .ok (.handle child) => if w.isAbandoned queued then answered.discard child else answered
  | _ => answered

/-- Count a piece of finished work of a handle. -/
def finishWork (w : World) (h : HandleId) (failed : Bool) : World :=
  w.modifyHandle h fun handle => { handle with mailbox := handle.mailbox.finish failed }

end World

namespace Handle

/-- The handle of a new child, which the caller takes over from the owning thread. -/
def ofChild (child : InterpId) : Act Envelope := do
  let w ← get
  let found := w.handles.entries.find? fun (_, handle) =>
    handle.interp = some child ∧ handle.owner = w.current ∧ handle.pinned
  match found with
  | some (h, _) =>
    set ((w.modifyHandle h fun handle => { handle with pinned := false }).hold h)
    return .ok (.handle h)
  | none => return .error .deleted

/-- The envelope of code that may complete abruptly. -/
def envelopeOf {α : Type} (product : α → Product) (code : Exec α) : Act Envelope := do
  match ← code.run with
  | .ok a => return .ok (product a)
  | .error end_ => return .error (.ofAbrupt end_)

/-- Do a job with an interpreter. -/
def runJob (e : Engine) (i : InterpId) : Job → Act Envelope
  | .getVar name => do return .ok (.optional (← getGlobal i name))
  | .setVar name value => envelopeOf .text (setGlobal i name value)
  | .unsetVar name => do return .ok (.truth (← unsetGlobal i name))
  | .evalOutcome script => do
    return .ok (.outcome (.ofCompletion (← e.call (.script i script))))
  | .describe => do
    let r ← getInterp i
    return .ok (.text s!"{r.name} {r.safe}")
  | .fail error => return .error error
  | .panic text => Act.panic text
  | .log label => do
    modify fun w => w.addLog label
    return .ok .none
  | .createChild name safe => do
    let (result, w) := (← get).createChild i name safe
    set w
    match result with
    | .error end_ => return .error (.ofAbrupt end_)
    | .ok child => ofChild child

/-- The envelope of a completion. -/
def envelope (completion : Completion) : Envelope :=
  completion.settle.map fun text => text.elim .none .text

/-- Execute work with an interpreter. -/
def execute (e : Engine) (i : InterpId) : Work → Act Envelope
  | .eval script => do return envelope (← evalFrom e i script)
  | .invoke words => do return envelope (← invokeFrom e i words)
  | .job job => runJob e i job

/-- Execute queued work of a handle. A panic of it is an error; a fatal signal is reported beside
the envelope. -/
def executeQueued (e : Engine) (h : HandleId) (work : Work) :
    Act (Envelope × Option FatalSignal) := do
  match (← get).interpOf? h with
  | none => return (.error .deleted, none)
  | some i =>
    match ← (execute e i work).attempt with
    | .ok envelope => return (envelope, none)
    | .error (.panic payload) =>
      return (.error (.eval s!"queued command panicked: {payload.message}"), none)
    | .error (.unwind signal) => return (.error (.fatal signal), some signal)
    | .error .stalled => Act.halt .stalled

/-- Answer the callers of work that outlived its handle, piece by piece. A fatal signal loses the
pieces behind it. -/
def serveDetached (e : Engine) (h : HandleId) : List Queued → Act Unit
  | [] => pure ()
  | queued :: rest => do
    let (envelope, fatal) ← executeQueued e h queued.work
    modify fun w => w.answerDetached queued envelope
    match fatal with
    | none => serveDetached e h rest
    | some signal =>
      modify fun w => w.loseReplies rest
      Act.raise signal

/-- Serve what outlived a handle and give its interpreter up. -/
def releaseHere (e : Engine) (h : HandleId) (pending : List Queued) : Act Unit := do
  serveDetached e h pending
  modify fun w => w.giveUp h

/-- Let the last holder of a handle go: on the owning thread its interpreter is given up at once,
from another thread when the owner serves the event. -/
def vanish (e : Engine) (h : HandleId) (handle : Handle) : Act Unit := do
  let (pending, mailbox) := handle.mailbox.takeAll
  let w := ((← get).record (.letGo h)).unregister h
  let w := w.modifyHandle h fun handle => { handle with mailbox }
  set w
  if w.onOwner h then releaseHere e h pending
  else if w.isRegistered handle.owner then
    set (w.post handle.owner (.release h pending))
  else set (w.loseReplies pending)

/-- One holder of a handle goes. -/
def release (e : Engine) (h : HandleId) : Act Unit := do
  modify fun w => w.unhold h
  match (← get).handles.get? h with
  | none => return
  | some handle => if handle.exists || handle.deleted then return else vanish e h handle

/-- Give the answer to a caller; a handle that nobody waits for any more is released. -/
def reply (e : Engine) (queued : Queued) (envelope : Envelope) : Act Unit := do
  let w ← get
  set (w.answerQueued queued envelope)
  match envelope with
  | .ok (.handle h) => if w.isAbandoned queued then release e h
  | _ => return

/-- Serve one piece of work from the mailbox of a handle. -/
def serveOne (e : Engine) (h : HandleId) : Act Unit := do
  match (← get).takeWork? h with
  | none => return
  | some (queued, w) =>
    set w
    let (envelope, fatal) ← executeQueued e h queued.work
    modify fun w => w.finishWork h envelope.failed
    reply e queued envelope
    release e h
    match fatal with
    | some signal => Act.raise signal
    | none => return

end Handle

end ScriptHost
