import ScriptHost.Engine
import ScriptHost.Session.Report

/-!
# Calls on a handle

Every call that a session can make on a handle, and what it tells about the answer. The calls that
wait for the owning thread are set apart as requests: each consists of the work that is handed over
and a report on what came back, so the two halves may be run at different times.
-/

namespace ScriptHost.Session

/-! ### Requests -/

/-- A call that waits for the owning thread. -/
inductive Request
  | eval (script : String)
  | evalOutcome (script : String)
  | invoke (words : List String)
  | getVar (name : String)
  | setVar (name value : String)
  | unsetVar (name : String)
  | patchLevel
  /-- Hand work over and tell what came back as it is. -/
  | enqueue (work : Work)
  | describe
  | fail (error : HostError)
  | panic (text : String)
  /-- Make a child and keep its handle under a name. -/
  | child (name : String) (safe : Bool) (keep : String)

/-- Keep a handle under a name; the handle that was kept there is released. -/
def keep (name : String) (h : HandleId) : Act Unit := do
  let former := (← get).names.get? name
  modify fun w => { w with names := w.names.insert name h }
  match former with
  | some h => Handle.release engine h
  | none => return

namespace Request

/-- The work that a request hands over, unless it is refused. -/
def work : Request → Except HostError Work
  | .eval script => .ok (.eval script)
  | .evalOutcome script => .ok (.job (.evalOutcome script))
  | .invoke words => (Handle.checkWords words).map fun () => .invoke words
  | .getVar name => .ok (.job (.getVar name))
  | .setVar name value => .ok (.job (.setVar name value))
  | .unsetVar name => .ok (.job (.unsetVar name))
  | .patchLevel => .ok (.job (.getVar "tcl_patchLevel"))
  | .enqueue work => .ok work
  | .describe => .ok (.job .describe)
  | .fail error => .ok (.job (.fail error))
  | .panic text => .ok (.job (.panic text))
  | .child name safe _ => .ok (.job (.createChild name safe))

/-- What work produced. -/
def productDatum : Product → Datum
  | .none => .none
  | .text value => .text value
  | .optional value => .optional value
  | .truth value => .truth value
  | .outcome value => .record (Report.outcome value)
  | .handle h => .count h

/-- What came back for work. -/
def envelopeDatum : Envelope → Datum
  | .ok product => .record [("value", .optional product.text?), ("error", .none)]
  | .error e => .record [("value", .none), ("error", .record (Report.error e))]

/-- The text of a variable; a missing one has the empty text. -/
def variableDatum : Product → Datum
  | .optional value => .text (value.getD "")
  | product => productDatum product

/-- What is told about the answer to a request. -/
def report (request : Request) (answer : Except HostError Envelope) : Report :=
  let product := Handle.productOf answer
  match request with
  | .eval _ => Report.result .text (Handle.textOf product)
  | .invoke _ => Report.result .text (Handle.textOf product)
  | .patchLevel => Report.result variableDatum product
  | .enqueue _ => Report.result envelopeDatum answer
  | _ => Report.result productDatum product

/-- Take the answer to a request: a handle in it is kept. -/
def accept (request : Request) (answer : Except HostError Envelope) : Act Report := do
  match request, answer with
  | .child _ _ name, .ok (.ok (.handle h)) => keep name h
  | _, _ => pure ()
  return request.report answer

/-- Make a request and wait for the answer. -/
def run (h : HandleId) (awaited : Bool) (request : Request) : Act Report := do
  match request.work with
  | .error error => return request.report (.error error)
  | .ok work => request.accept (← Handle.request engine h work awaited)

end Request

/-! ### All calls -/

/-- A call on a handle. -/
inductive HandleCall
  | request (request : Request) (awaited : Bool)
  /-- Hand work over without waiting. -/
  | post (work : Work)
  | register (closure : Closure)
  | unregister (id : String)
  | setEvaluator (closure : Closure)
  | dispatch (id : String) (args : List String)
  | callbacks (id : Option String)
  | runLoop
  | stopLoop
  | delete
  | info
  | setTimer (ms : Nat)
  | stats

namespace HandleCall

/-- What is told about the closures of a handle. -/
def callbacksDatum (callbacks : Callbacks) (id : Option String) : Datum :=
  .record
    [ ("ids", .texts callbacks.ids), ("len", .count callbacks.size),
      ("empty", .truth (callbacks.size == 0)),
      ("contains", id.elim .none fun id => .truth (callbacks.contains id)) ]

/-- What is told about a handle. -/
def infoDatum (w : World) (h : HandleId) (handle : Handle) : Datum :=
  .record
    [ ("id", .count h), ("name", .text handle.name), ("safe", .truth handle.safe),
      ("deleted", .truth handle.deleted), ("on_owner", .truth (w.onOwner h)),
      ("timer", .count handle.timerMs), ("tracked", .truth (w.isTracked h)) ]

/-- What is told about the work of a handle. -/
def statsDatum (mailbox : Mailbox) : Datum :=
  .record
    [ ("submitted", .count mailbox.submitted), ("completed", .count mailbox.completed),
      ("failed", .count mailbox.failed), ("in_flight", .count mailbox.inFlight),
      ("pending", .count mailbox.queue.length) ]

/-- A report on the handle as it is. -/
def describe (h : HandleId) (datum : Handle → Datum) : Act Report := do
  match (← get).handles.get? h with
  | some handle => return Report.ok (datum handle)
  | none => return Report.done

/-- Make a call on a handle. -/
def run (h : HandleId) : HandleCall → Act Report
  | .request asked awaited => asked.run h awaited
  | .post work => do
    return Report.result (fun _ => .none) (← Handle.enqueue engine h work false)
  | .register closure => do return Report.result .text (← Handle.register h closure)
  | .unregister id => do return Report.result (fun _ => .none) (← Handle.unregister h id)
  | .setEvaluator closure => do
    return Report.result (fun _ => .none) (← Handle.setEvaluator h closure)
  | .dispatch id args => do
    return Report.result (fun o => .record (Report.outcome o))
      (← ScriptHost.dispatch engine h id args)
  | .callbacks id => describe h fun handle => callbacksDatum handle.callbacks id
  | .runLoop => do
    return Report.result (fun _ => .none) (← EventLoop.ofHandle engine h)
  | .stopLoop => do
    Handle.stopLoop h
    return Report.done
  | .delete => do
    modify fun w => w.deleteHandle h
    return Report.done
  | .info => do
    let w ← get
    describe h (infoDatum w h)
  | .setTimer ms => do
    modify fun w => w.modifyHandle h fun handle => { handle with timerMs := ms }
    describe h fun handle => .count handle.timerMs
  | .stats => describe h fun handle => statsDatum handle.mailbox

end HandleCall

end ScriptHost.Session
