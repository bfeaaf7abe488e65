import ScriptHost.Handle.Release

/-!
# Calls on handles

Any thread may call. On the owning thread work runs in place; elsewhere it goes into the mailbox
and the owner is told with one event for each piece. A caller that waits gets the envelope of its
own work, or an error if it cannot come any more.
-/

namespace ScriptHost

namespace World

/-- Give the open work of a handle up because its owner is gone, or hand it over. -/
def submit (w : World) (h : HandleId) (work : Work) (reply : Option ReplyId) :
    Except HostError Unit × World :=
  if w.hub.interrupted then (.error (.fatal .interrupt), w)
  else
    match w.handles.get? h with
    | none => (.error .ownerGone, w)
    | some handle =>
      let w := w.modifyHandle h fun handle =>
        { handle with mailbox := handle.mailbox.push ⟨work, reply⟩ }
      if w.isRegistered handle.owner then
        let w := w.post handle.owner (.serve h)
        (.ok (), if handle.deleted then w.drainMailbox h .deleted else w)
      else (.error .ownerGone, w.drainMailbox h .ownerGone)

/-- When a caller of a handle stops waiting. -/
def waitDeadline (w : World) (h : HandleId) : Option Time :=
  ((w.handles.get? h).bind (·.config.waitTimeoutMs)).map fun ms => w.clock + milliseconds ms

/-- Whether nobody is going to answer a caller any more. -/
def isHopeless (w : World) (owner : ThreadId) : Bool :=
  w.hub.interrupted || !w.isRegistered owner

/-- Whether a handle is deleted. -/
def isDeleted (w : World) (h : HandleId) : Bool :=
  (w.handles.get? h).any (·.deleted)

/-- The thread that owns a handle. -/
def ownerOf (w : World) (h : HandleId) : ThreadId :=
  ((w.handles.get? h).map (·.owner)).getD 0

end World

namespace Handle

/-- A fatal error that reaches a host closure as a value starts unwinding again. -/
def escalate {α : Type} (result : Except HostError α) : Act (Except HostError α) := do
  match result with
  | .error (.fatal signal) =>
    if (← get).inCallback then Act.beginUnwind signal else return result
  | _ => return result

/-- What a caller is told about its reply at this moment, if anything is certain. An answer that
came after the deadline came too late. -/
def replyState (w : World) (h : HandleId) (r : ReplyId) (deadline : Option Time) :
    Option (Except HostError Envelope) :=
  match w.replies.get? r with
  | none => some (.error .ownerGone)
  | some reply =>
    match reply.answer with
    | some (envelope, time) =>
      if deadline.any (· ≤ time) then some (.error .timeout) else some (.ok envelope)
    | none =>
      if reply.lost then some (.error (if w.isDeleted h then .deleted else .ownerGone)) else none

/-- What a caller is told that waited in vain. -/
def waitedInVain (w : World) (deadline : Option Time) : HostError :=
  if w.hub.interrupted then .fatal .interrupt
  else if deadline.any (· ≤ w.clock) then .timeout
  else .ownerGone

/-- Give a reply up. A handle in an answer that came too late is released. -/
def abandon (e : Engine) (r : ReplyId) : Act Unit := do
  modify fun w =>
    { w with replies := w.replies.modify r fun reply => { reply with abandoned := true } }
  match ((← get).replies.get? r).bind (·.answer) with
  | some (.ok (.handle h), _) => release e h
  | _ => return

/-- What becomes of a reply at this moment: the answer, or the error for waiting in vain. -/
def settleReply (e : Engine) (h : HandleId) (r : ReplyId) (deadline : Option Time) :
    Act (Except HostError Envelope) := do
  let w ← get
  match replyState w h r deadline with
  | some (.ok envelope) => return .ok envelope
  | some (.error error) =>
    abandon e r
    return .error error
  | none =>
    abandon e r
    return .error (waitedInVain w deadline)

/-- Wait for a reply. -/
def awaitReply (e : Engine) (h : HandleId) (r : ReplyId) : Act (Except HostError Envelope) := do
  let w ← get
  let deadline := w.waitDeadline h
  let owner := w.ownerOf h
  waitUntil e (fun w => (replyState w h r deadline).isSome) (·.isHopeless owner) deadline
  settleReply e h r deadline

/-- Execute work in place. A fatal signal is an error of the work, but inside a host closure it goes
on unwinding, and so does a panic. -/
def executeHere (e : Engine) (h : HandleId) (work : Work) : Act Envelope := do
  modify fun w => w.startWork h
  match (← get).interpOf? h with
  | none =>
    modify fun w => w.finishWork h true
    return .error .deleted
  | some i =>
    match ← (execute e i work).attempt with
    | .ok envelope =>
      modify fun w => w.finishWork h envelope.failed
      return envelope
    | .error halt =>
      modify fun w => w.finishWork h true
      match halt with
      | .unwind signal =>
        if (← get).inCallback then Act.halt halt else return .error (.fatal signal)
      | _ => Act.halt halt

/-- Hand work to another thread for a caller that waits for the reply. -/
def submitForReply (h : HandleId) (work : Work) : Act (Except HostError ReplyId) := do
  let (r, w) := (← get).newReply
  let (submitted, w) := w.submit h work (some r)
  set w
  return submitted.map fun () => r

/-- Hand work to the owning thread. Without waiting, work for another thread has no envelope. -/
def enqueue (e : Engine) (h : HandleId) (work : Work) (wait : Bool) :
    Act (Except HostError (Option Envelope)) := do
  let w ← get
  if w.isDeleted h then return .error .deleted
  else if w.onOwner h then
    let envelope ← executeHere e h work
    return .ok (if wait then some envelope else none)
  else if wait then
    match ← escalate (← submitForReply h work) with
    | .error error => return .error error
    | .ok r =>
      match ← escalate (← awaitReply e h r) with
      | .error error => return .error error
      | .ok envelope =>
        match envelope with
        | .error (.fatal signal) =>
          if (← get).inCallback then Act.beginUnwind signal else return .ok (some envelope)
        | _ => return .ok (some envelope)
  else
    let (submitted, w) := w.submit h work none
    set w
    match ← escalate submitted with
    | .error error => return .error error
    | .ok () => return .ok none

/-- Hand work to the owning thread and await its envelope. Nothing is raised here: a fatal error is
a value even inside a host closure. -/
def enqueueAsync (e : Engine) (h : HandleId) (work : Work) :
    Act (Except HostError Envelope) := do
  let w ← get
  if w.isDeleted h then return .error .deleted
  else if w.onOwner h then return .ok (← executeHere e h work)
  else
    match ← submitForReply h work with
    | .error error => return .error error
    | .ok r => awaitReply e h r

/-- Hand work over and wait for its envelope, as a caller that blocks or as one that awaits. -/
def request (e : Engine) (h : HandleId) (work : Work) (awaited : Bool) :
    Act (Except HostError Envelope) := do
  if awaited then enqueueAsync e h work
  else
    match ← enqueue e h work true with
    | .error error => return .error error
    | .ok envelope => return .ok (envelope.getD (.ok .none))

/-- The product of work whose caller waited. -/
def productOf : Except HostError Envelope → Except HostError Product
  | .error error => .error error
  | .ok envelope => envelope

/-- Hand work over and wait for its product. -/
def run (e : Engine) (h : HandleId) (work : Work) : Act (Except HostError Product) := do
  return productOf (← request e h work false)

/-- Only a command with a name can be invoked. -/
def checkWords (words : List String) : Except HostError Unit :=
  if words.isEmpty then .error (.invalidArgument "invoke requires at least one word") else .ok ()

/-- The text of a product; work without one has the empty text. -/
def textOf (result : Except HostError Product) : Except HostError String :=
  result.map fun product => product.text?.getD ""

/-- The outcome that work produced. -/
def outcomeOf : Except HostError Product → Except HostError Outcome
  | .error error => .error error
  | .ok (.outcome outcome) => .ok outcome
  | .ok _ => .error .deleted

/-- Evaluate a script. -/
def evaluate (e : Engine) (h : HandleId) (script : String) : Act (Except HostError String) := do
  return textOf (← run e h (.eval script))

/-- Invoke a command by its words. -/
def invoke (e : Engine) (h : HandleId) (words : List String) :
    Act (Except HostError String) := do
  match checkWords words with
  | .error error => return .error error
  | .ok () => return textOf (← run e h (.invoke words))

/-- Evaluate a script and report how it completed. -/
def evaluateOutcome (e : Engine) (h : HandleId) (script : String) :
    Act (Except HostError Outcome) := do
  return outcomeOf (← run e h (.job (.evalOutcome script)))

/-- Fail if a handle is deleted. -/
def checkLive (h : HandleId) : Act (Except HostError Unit) := do
  return if (← get).isDeleted h then .error .deleted else .ok ()

/-- Register a closure and answer its id. -/
def register (h : HandleId) (closure : Closure) : Act (Except HostError String) := do
  match ← checkLive h with
  | .error error => return .error error
  | .ok () =>
    match (← get).handles.get? h with
    | none => return .error .deleted
    | some handle =>
      let (id, callbacks) := handle.callbacks.register closure
      modify fun w => w.modifyHandle h fun handle => { handle with callbacks }
      return .ok id

/-- Remove a closure. -/
def unregister (h : HandleId) (id : String) : Act (Except HostError Unit) := do
  match ← checkLive h with
  | .error error => return .error error
  | .ok () =>
    modify fun w =>
      w.modifyHandle h fun handle => { handle with callbacks := handle.callbacks.unregister id }
    return .ok ()

/-- Install the closure behind `host_eval`. -/
def setEvaluator (h : HandleId) (closure : Closure) : Act (Except HostError Unit) := do
  match ← checkLive h with
  | .error error => return .error error
  | .ok () =>
    modify fun w => w.modifyHandle h fun handle => { handle with evaluator := some closure }
    return .ok ()

/-- Ask the loop of a handle to return. -/
def stopLoop (h : HandleId) : Act Unit :=
  modify fun w =>
    (w.modifyHandle h fun handle => { handle with stopRequested := true }).alert (w.ownerOf h)

end Handle

namespace Hub

/-- Raise the interrupt flag and wake everybody. -/
def interrupt : Act Unit :=
  modify fun w => { w with hub := { w.hub with interrupted := true } }.alertAll

/-- Take the interrupt back. -/
def clearInterrupt : Act Unit :=
  modify fun w => { w with hub := { w.hub with interrupted := false } }

/-- Ask the global loop to return. -/
def stopLoop : Act Unit :=
  modify fun w => { w with hub := { w.hub with globalStop := true } }.alertAll

end Hub

end ScriptHost
