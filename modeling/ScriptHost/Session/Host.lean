import ScriptHost.Session.Call

/-!
# Host sessions

A session of a host that keeps handles and workers under names and makes calls from several
threads. Between two steps the workers go on until each of them waits.
-/

namespace ScriptHost.Session

/-! ### Steps -/

/-- From where a call is made. -/
inductive Via
  | here
  /-- From another thread, while this one does nothing. -/
  | thread
  /-- From another thread, while this one serves posted events. -/
  | remote
  /-- From another thread that goes on waiting; a ticket names the call. -/
  | start (ticket : String)

/-- When a loop is to return. -/
inductive LoopGoal
  /-- When its condition has been asked for more often than a number of times. -/
  | asks (count : Nat)
  /-- When the log holds a number of entries. -/
  | logged (count : Nat)

/-- What a step does. -/
inductive HostAction
  | create (keep : String) (config : HandleConfig)
  | spawn (keep : String) (config : HandleConfig)
  /-- Make an interpreter on a thread that ends after a script. -/
  | createDead (keep : String) (config : HandleConfig) (script : String)
  | shutdown (name : String)
  | drop (name : String)
  | clone (name keep : String)
  | same (name other : String)
  | instances
  | find (name keep : String)
  | inCallback
  | callbackCommand (id : String)
  | splitList (text : String)
  | mergeList (words : List String)
  | interrupt
  | clearInterrupt
  | stopGlobal
  | runGlobal (untilIdle : Bool)
  | globalTimer (ms : Option Nat)
  | oneEvent (flags : Nat)
  | pending
  | runLoop (ms : Nat) (goal : LoopGoal)
  | waitDeleted (name : String)
  | join (ticket : String)
  | call (name : String) (via : Via) (call : HandleCall)

/-- A step of a host session. -/
structure HostStep where
  action : HostAction
  /-- Whether the log is left for a later step. -/
  later : Bool

/-! ### Calls from other threads -/

/-- An action that tells what cut it short. -/
def told (act : Act Report) : Act Report := do
  match ← act.attempt with
  | .ok report => return report
  | .error halt => return Report.halt halt

/-- Make a call from another thread. -/
def elsewhere (call : Act Report) : Act Report := do
  let (t, w) := (← get).newThread
  set w
  let report ← asThread t (told call)
  modify fun w => w.endThread t
  return report

/-- Let a thread serve what is posted to it, for a number of events. -/
def serveAll (t : ThreadId) : Nat → Act Unit
  | 0 => pure ()
  | count + 1 => do if ← engine.call (.turn t) then serveAll t count

/-- Do something while the thread at hand serves posted events, and report the errors that these
ended with. -/
def whileServing (act : Act Report) : Act Report := do
  let here := (← get).current
  let setRole (w : World) (role : Role) : World :=
    w.modifyThread here fun thread => { thread with role }
  modify fun w => { setRole w (.serving []) with engaged := w.engaged.erase here }
  let report ← act
  serveAll here engine.fuel
  let errors :=
    match (← get).threads.get? here with
    | some { role := .serving errors, .. } => errors
    | _ => []
  modify fun w => { setRole w .resting with engaged := here :: w.engaged }
  if errors.isEmpty then return report
  else
    return report ++ [("owner", .list (errors.map fun error => .record (Report.error error)))]

/-! ### Tickets -/

/-- A request that another thread waits for. -/
structure Pending where
  thread : ThreadId
  handle : HandleId
  request : Request
  reply : ReplyId
  deadline : Option Time

/-- A call that was started from another thread. -/
inductive Ticket
  | pending (pending : Pending)
  | finished (report : Report)

namespace Ticket

/-- Start a request from another thread, which holds the handle until it has the answer. -/
def ofRequest (h : HandleId) (request : Request) : Act Ticket := do
  let refuse (error : HostError) : Ticket := .finished (request.report (.error error))
  let (t, w) := (← get).newThread
  set w
  match request.work with
  | .error error => return refuse error
  | .ok work =>
    if w.isDeleted h then return refuse .deleted
    else
      match ← asThread t (Handle.submitForReply h work) with
      | .error error => return refuse error
      | .ok reply =>
        modify fun w => w.hold h
        return .pending { thread := t, handle := h, request, reply, deadline := w.waitDeadline h }

/-- Start a call from another thread. -/
def start (h : HandleId) : HandleCall → Act Ticket
  | .request request _ => ofRequest h request
  | call => do return .finished (← elsewhere (call.run h))

end Ticket

namespace Pending

/-- Whether it is certain what becomes of a request. -/
def isDecided (p : Pending) (w : World) : Bool :=
  (Handle.replyState w p.handle p.reply p.deadline).isSome || p.deadline.any (· ≤ w.clock)

/-- Take the answer to a request. The thread that waited lets its handle go and ends. -/
def finish (p : Pending) : Act Report := do
  let report ← asThread p.thread do
    let answer ← Handle.settleReply engine p.handle p.reply p.deadline
    let report ← p.request.accept answer
    Handle.release engine p.handle
    return report
  modify fun w => w.endThread p.thread
  return report

/-- Wait for the answer to a request. -/
def await (p : Pending) : Act Report := do
  let owner := (← get).ownerOf p.handle
  waitUntil engine p.isDecided (·.isHopeless owner) p.deadline
  p.finish

end Pending

/-! ### The session -/

/-- What a host session keeps besides the handles. -/
structure HostSession where
  workers : Table String (ThreadId × HandleId) := .empty
  tickets : Table String Ticket := .empty

/-- The name of a phase of a loop. -/
def phaseName : LoopPhase → String
  | .idle => "Idle"
  | .running => "Running"
  | .draining => "Draining"
  | .stopped => "Stopped"

/-- A loop asks for its condition only while it runs. -/
def phaseWhenAsking : LoopPhase := .running

/-- How far a loop is. -/
def phaseOf (w : World) (l : LoopId) : LoopPhase :=
  ((w.loops.get? l).map (·.phase)).getD .idle

/-- Whether a loop is to return. -/
def LoopGoal.reached (l : LoopId) : LoopGoal → Act Bool
  | .asks count => do return count < (← get).asksOf l
  | .logged count => do return count ≤ (← get).log.length

/-- Run a loop of its own and tell how far it was before, when it first asked and after. -/
def runOwnLoop (ms : Nat) (goal : LoopGoal) : Act Report := do
  let (l, w) := (← get).newLoop (.fixed ms)
  set w
  let before := phaseOf w l
  let result ← EventLoop.runLoop engine l (goal.reached l)
  let phases := [before, phaseWhenAsking, phaseOf (← get) l]
  return Report.result (fun _ => .none) result ++
    [("states", .texts (phases.map phaseName))]

/-- The handles that are registered. -/
def instances (w : World) : Report :=
  let live := w.liveHandles.filterMap fun h => (w.handles.get? h).map fun handle => (h, handle)
  let item : HandleId × Handle → Datum := fun (h, handle) =>
    .list [.count h, .text handle.name, .truth handle.safe]
  Report.ok (.list (live.map item)) ++ [("count", .count live.length)]

/-- Keep the first registered handle with a name. -/
def find (name keptAs : String) : Act Report := do
  let w ← get
  let named (h : HandleId) : Bool := (w.handles.get? h).any (·.name == name)
  match w.liveHandles.find? named with
  | none => return Report.done
  | some h =>
    set (w.hold h)
    keep keptAs h
    return Report.ok (.count h)

/-- Drop the handle that is kept under a name. -/
def drop (name : String) : Act Report := do
  match (← get).names.get? name with
  | none => return Report.ok (.truth false)
  | some h =>
    modify fun w => { w with names := w.names.erase name }
    Handle.release engine h
    return Report.ok (.truth true)

/-- Make an interpreter on a thread that evaluates a script and ends. -/
def createDead (config : HandleConfig) (script : String) : Act HandleId := do
  let (t, w) := (← get).newThread
  set w
  let h ← asThread t do
    let h ← Worker.create config
    let _ ← (Handle.evaluate engine h script).attempt
    return h
  modify fun w => w.endThread t
  return h

/-- Stop the worker with a name. -/
def shutdown (name : String) (session : HostSession) :
    Act (Except HostError Unit × HostSession) := do
  match session.workers.get? name with
  | none => return (.ok (), session)
  | some (t, h) =>
    let result ← Worker.shutdown engine t h
    return (result, { session with workers := session.workers.erase name })

/-- Start a worker; the one that had its name is stopped. -/
def spawn (name : String) (config : HandleConfig) (session : HostSession) :
    Act (Report × HostSession) := do
  let h ← Worker.spawn config
  keep name h
  let (_, session) ← shutdown name session
  let t := (← get).ownerOf h
  return (Report.ok (.count h), { session with workers := session.workers.insert name (t, h) })

/-- Wait for a call that was started. -/
def join (ticket : String) (session : HostSession) : Act (Report × HostSession) := do
  let session' := { session with tickets := session.tickets.erase ticket }
  match session.tickets.get? ticket with
  | none => return (Report.done, session')
  | some (.finished report) => return (report, session')
  | some (.pending p) => return (← p.await, session')

/-- Make a call on the handle that is kept under a name. -/
def makeCall (name : String) (call : HandleCall) (session : HostSession) :
    Via → Act (Report × HostSession)
  | .here => do return (← call.run (← Closure.target name), session)
  | .thread => do
    let h ← Closure.target name
    return (← elsewhere (call.run h), session)
  | .remote => do
    let h ← Closure.target name
    return (← whileServing (elsewhere (call.run h)), session)
  | .start ticket => do
    let h ← Closure.target name
    let started ← Ticket.start h call
    return (Report.done, { session with tickets := session.tickets.insert ticket started })

/-- Do what a step asks for. -/
def HostAction.run (session : HostSession) : HostAction → Act (Report × HostSession)
  | .create name config => do
    let h ← Worker.create config
    keep name h
    return (Report.ok (.count h), session)
  | .spawn name config => Session.spawn name config session
  | .createDead name config script => do
    let h ← Session.createDead config script
    keep name h
    return (Report.ok (.count h), session)
  | .shutdown name => do
    let (result, session) ← Session.shutdown name session
    return (Report.result (fun _ => .none) result, session)
  | .drop name => do return (← Session.drop name, session)
  | .clone name other => do
    let h ← Closure.target name
    modify fun w => w.hold h
    keep other h
    return (Report.done, session)
  | .same name other => do
    let h ← Closure.target name
    let h' ← Closure.target other
    return (Report.ok (.truth (h == h')), session)
  | .instances => do return (Session.instances (← get), session)
  | .find name other => do return (← Session.find name other, session)
  | .inCallback => do return (Report.ok (.truth (← get).inCallback), session)
  | .callbackCommand id => return (Report.ok (.text (Callbacks.command id)), session)
  | .splitList text =>
    let words := (WordList.split text).mapError fun e => HostError.eval e.message
    return (Report.result .texts words, session)
  | .mergeList words => return (Report.ok (.text (WordList.merge words)), session)
  | .interrupt => do
    Hub.interrupt
    return (Report.ok (.truth (← get).hub.interrupted), session)
  | .clearInterrupt => do
    Hub.clearInterrupt
    return (Report.ok (.truth (← get).hub.interrupted), session)
  | .stopGlobal => do
    Hub.stopLoop
    return (Report.done, session)
  | .runGlobal untilIdle => do
    return (Report.result (fun _ => .none) (← EventLoop.global engine untilIdle), session)
  | .globalTimer ms => do
    let w ← get
    let ms := ms.getD w.hub.globalTimerMs
    set { w with hub := { w.hub with globalTimerMs := ms } }
    return (Report.ok (.count ms), session)
  | .oneEvent flags => do
    return (Report.result .truth (← processOneEvent engine (.ofBits flags)), session)
  | .pending => do return (Report.pending (← get), session)
  | .runLoop ms goal => do return (← runOwnLoop ms goal, session)
  | .waitDeleted name => do
    let h ← Closure.target name
    waitUntil engine (·.isDeleted h) (fun _ => false) none
    return (Report.ok (.truth true), session)
  | .join ticket => Session.join ticket session
  | .call name via asked => makeCall name asked session via

/-! ### Between two steps -/

/-- How many turns the workers may take between two steps. -/
def turnsBetweenSteps : Nat := 10000

/-- Let the workers go on until each of them waits, for a number of turns. -/
def letWorkersGo : Nat → Act Unit
  | 0 => pure ()
  | count + 1 => do if ← moveOther engine then letWorkersGo count

/-- A ticket with the answer to its request, once that is decided. -/
def Ticket.settle : Ticket → Act Ticket
  | .pending p => do
    if p.isDecided (← get) then return .finished (← told p.finish) else return .pending p
  | ticket => return ticket

/-- Take the answers that have come. -/
def settleTickets : List (String × Ticket) → Act (List (String × Ticket))
  | [] => return []
  | (name, ticket) :: rest => do
    let ticket ← ticket.settle
    return (name, ticket) :: (← settleTickets rest)

/-- What happens between two steps. -/
def HostSession.settle (session : HostSession) : Act HostSession := do
  letWorkersGo turnsBetweenSteps
  return { session with tickets := ⟨← settleTickets session.tickets.entries⟩ }

/-- Do something with the session; when it is cut short, the session stays as it was. -/
def attemptWith {α : Type} (act : Act (α × HostSession)) (cut : Halt → α) (session : HostSession)
    (w : World) : α × HostSession × World :=
  match act w with
  | .ok (a, session) w => (a, session, w)
  | .error halt w => (cut halt, session, w)

/-- Go through a step. -/
def HostStep.run (step : HostStep) (session : HostSession) (w : World) :
    Report × HostSession × World :=
  let (report, session, w) := attemptWith (step.action.run session) Report.halt session w
  let logged := if step.later then [] else Report.logged w
  let report := report ++ logged ++ Report.printed w
  let w := clearPrinted (if step.later then w else clearLogged w)
  let settle : Act (Unit × HostSession) := do return ((), ← session.settle)
  let ((), session, w) := attemptWith settle (fun _ => ()) session w
  (report, session, w)

/-- Go through steps and report on each. -/
def runHostSteps (session : HostSession) (w : World) : List HostStep → List Report
  | [] => []
  | step :: rest =>
    let (report, session, w) := step.run session w
    report :: runHostSteps session w rest

/-- A host session without handles to begin with. -/
def runHostSession (files : Machine.Files) (globalTimerMs : Nat) (steps : List HostStep) :
    List Report :=
  runHostSteps {} { files, hub := { globalTimerMs } } steps

end ScriptHost.Session
