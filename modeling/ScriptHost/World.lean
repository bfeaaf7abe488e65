import ScriptHost.Callbacks
import ScriptHost.Interpreter

/-!
# The state of a host

All that a host process with its threads, interpreters and handles consists of. Time is a clock
that advances by a tick for every piece of work that is served and otherwise only while every
thread waits, and the threads take turns.
-/

namespace ScriptHost

/-- Names a run of an event loop. -/
abbrev LoopId := Nat

/-- A handle through which any thread reaches one interpreter. -/
structure Handle where
  /-- The thread that made the interpreter, the only one to run it. -/
  owner : ThreadId
  name : String
  safe : Bool
  deleted : Bool := false
  /-- The interval of the keepalive timer of its loop. -/
  timerMs : Nat
  callbacks : Callbacks := {}
  /-- The closure behind the command `host_eval`. -/
  evaluator : Option Closure := none
  mailbox : Mailbox := {}
  stopRequested : Bool := false
  config : HandleConfig
  /-- The interpreter, as long as the owning thread keeps it for this handle. -/
  interp : Option InterpId
  /-- Whether the owning thread holds the handle, for a child made by a script. -/
  pinned : Bool := false
  /-- How many other holders the handle has. -/
  holders : Nat := 0

/-- Whether anybody holds the handle. -/
def Handle.exists (h : Handle) : Bool :=
  h.pinned || 0 < h.holders

/-- The record that all handles of a process share. -/
structure Hub where
  /-- The handles that are not deleted, in order of registration. -/
  registry : List HandleId := []
  nextHandle : HandleId := 1
  interrupted : Bool := false
  globalStop : Bool := false
  globalTimerMs : Nat := 5

/-- An event that is posted to the owning thread of an interpreter. -/
inductive Event
  /-- Serve one piece of work of a handle. -/
  | serve (handle : HandleId)
  /-- Serve the work that outlived a handle and give the interpreter up. -/
  | release (handle : HandleId) (pending : List Queued)
  /-- Delete the interpreter of a deleted handle. -/
  | delete (handle : HandleId)
  /-- Print a label. -/
  | print (label : String)

/-- What a timer or an idle handler does. -/
inductive Handler
  /-- Run a scheduled script. -/
  | after (interp : InterpId) (id script : String)
  /-- Keep a loop from waiting without end. -/
  | keepalive (loop : LoopId)
  /-- Delete an interpreter whose commands have finished. -/
  | delete (interp : InterpId)
  /-- Log a label and then the completion of a script, if there is one. -/
  | label (interp : InterpId) (label : String) (script : Option String)

/-- What a thread does while it is not running. -/
inductive Role
  /-- Nothing. -/
  | resting
  /-- Serve posted events, collecting the errors that end one. -/
  | serving (errors : List HostError)
  /-- Run the loop of a handle. -/
  | looping (handle : HandleId) (loop : LoopId)

/-- A thread. -/
structure Thread where
  agenda : Agenda Event Handler := {}
  /-- How many host closures are running on the thread. -/
  callbackDepth : Nat := 0
  role : Role := .resting

/-- Where a loop takes its interval from. -/
inductive Interval
  | fixed (ms : Nat)
  | handle (handle : HandleId)
  | hub

/-- How far a loop is. -/
inductive LoopPhase
  | idle
  | running
  /-- Serving what is queued without waiting. -/
  | draining
  | stopped
deriving DecidableEq, Repr

/-- A run of an event loop with its keepalive timer. -/
structure Loop where
  interval : Interval
  phase : LoopPhase := .idle
  /-- How often the loop has asked for its condition. -/
  asks : Nat := 0
  token : Option Token := none
  /-- Whether the timer may be armed. -/
  active : Bool := true

/-- A reply that a caller waits for. -/
structure Reply where
  /-- The answer and the time at which it came. -/
  answer : Option (Envelope × Time) := none
  /-- Whether nobody can answer any more. -/
  lost : Bool := false
  /-- Whether the caller has given up. -/
  abandoned : Bool := false

/-- What may happen on a thread. -/
inductive Occurrence
  /-- A command begins in an interpreter. -/
  | invoked (interp : InterpId) (name : String) (command : Command)
  /-- A host closure begins. -/
  | ran (closure : Closure)
  /-- Host code raises a fatal signal. -/
  | raised (signal : FatalSignal)
  /-- The thread waits and lets another one go on. -/
  | yielded (other : ThreadId)
  /-- The last holder of a handle goes. -/
  | letGo (handle : HandleId)

/-- Something that happened on a thread. -/
structure Incident where
  thread : ThreadId
  what : Occurrence

/-- The state of a host. -/
structure World where
  clock : Time := 0
  current : ThreadId := 0
  /-- The threads whose code is under way, and which cannot take a turn. -/
  engaged : List ThreadId := [0]
  threads : Table ThreadId Thread := ⟨[(0, {})]⟩
  nextThread : ThreadId := 1
  /-- How the loops of the threads that ended did so. -/
  results : Table ThreadId (Except HostError Unit) := .empty
  interps : Table InterpId Interpreter := .empty
  nextInterp : InterpId := 0
  hub : Hub := {}
  handles : Table HandleId Handle := .empty
  loops : Table LoopId Loop := .empty
  nextLoop : LoopId := 0
  replies : Table ReplyId Reply := .empty
  nextReply : ReplyId := 0
  /-- The handles that the host keeps, by name. -/
  names : Table String HandleId := .empty
  log : List String := []
  stdout : String := ""
  stderr : String := ""
  /-- The files of the working directory with their texts. -/
  files : Table String String := .empty
  /-- What happened so far, the newest first. It is kept for whoever looks at the host from outside;
  no code reads it. -/
  trace : List Incident := []

namespace World

/-- An interpreter; one that is not known counts as deleted. -/
def interp (w : World) (i : InterpId) : Interpreter :=
  w.interps.getD i { deleted := true }

/-- Change an interpreter. -/
def modifyInterp (w : World) (i : InterpId) (f : Interpreter → Interpreter) : World :=
  { w with interps := w.interps.modify i f }

/-- Change a handle. -/
def modifyHandle (w : World) (h : HandleId) (f : Handle → Handle) : World :=
  { w with handles := w.handles.modify h f }

/-- Change a thread. -/
def modifyThread (w : World) (t : ThreadId) (f : Thread → Thread) : World :=
  { w with threads := w.threads.modify t f }

/-- Change the agenda of a thread. -/
def modifyAgenda (w : World) (t : ThreadId) (f : Agenda Event Handler → Agenda Event Handler) :
    World :=
  w.modifyThread t fun thread => { thread with agenda := f thread.agenda }

/-- The agenda of a thread. -/
def agendaOf (w : World) (t : ThreadId) : Agenda Event Handler :=
  ((w.threads.get? t).map (·.agenda)).getD {}

/-- The agenda of the thread that is running. -/
def agenda (w : World) : Agenda Event Handler :=
  w.agendaOf w.current

/-- Replace the agenda of the thread that is running. -/
def setAgenda (w : World) (a : Agenda Event Handler) : World :=
  w.modifyAgenda w.current fun _ => a

/-- Whether the thread that is running runs host closures. -/
def inCallback (w : World) : Bool :=
  match w.threads.get? w.current with
  | some thread => 0 < thread.callbackDepth
  | none => false

/-- Append an entry to the log. -/
def addLog (w : World) (entry : String) : World :=
  { w with log := w.log ++ [entry] }

/-- Print to the standard output. -/
def print (w : World) (text : String) : World :=
  { w with stdout := w.stdout ++ text }

/-- Print to the standard error output. -/
def printError (w : World) (text : String) : World :=
  { w with stderr := w.stderr ++ text }

/-- Note what happens on the thread that is running. -/
def record (w : World) (what : Occurrence) : World :=
  { w with trace := ⟨w.current, what⟩ :: w.trace }

/-- Whether a handle is there and not deleted. -/
def isLive (w : World) (h : HandleId) : Bool :=
  match w.handles.get? h with
  | some handle => handle.exists && !handle.deleted
  | none => false

/-- Wake a thread that waits. -/
def alert (w : World) (t : ThreadId) : World :=
  w.modifyAgenda t .alert

/-- Wake all threads that wait. -/
def alertAll (w : World) : World :=
  w.threads.keys.foldl alert w

/-- Post an event to a thread and wake it; an event for a thread that ended is dropped. -/
def post (w : World) (t : ThreadId) (event : Event) : World :=
  (w.modifyAgenda t (·.post event)).alert t

/-- Whether a thread has an agenda to post to. -/
def isRegistered (w : World) (t : ThreadId) : Bool :=
  w.threads.contains t

/-- Store the answer to a reply that is still open. -/
def answer (w : World) (r : ReplyId) (envelope : Envelope) : World :=
  { w with
    replies := w.replies.modify r fun reply =>
      if reply.answer.isSome then reply else { reply with answer := some (envelope, w.clock) } }

/-- Answer queued work whose caller waits. -/
def answerQueued (w : World) (queued : Queued) (envelope : Envelope) : World :=
  match queued.reply with
  | some r => w.answer r envelope
  | none => w

/-- A reply for a new caller. -/
def newReply (w : World) : ReplyId × World :=
  (w.nextReply,
    { w with replies := w.replies.insert w.nextReply {}, nextReply := w.nextReply + 1 })

/-- A new thread that does nothing by itself. -/
def newThread (w : World) : ThreadId × World :=
  (w.nextThread,
    { w with
      threads := w.threads.insert w.nextThread {}
      nextThread := w.nextThread + 1 })

/-- Remove a handle from the registry. -/
def unregister (w : World) (h : HandleId) : World :=
  { w with hub := { w.hub with registry := w.hub.registry.filter (· ≠ h) } }

/-- Whether the registry lists a handle. -/
def isTracked (w : World) (h : HandleId) : Bool :=
  w.hub.registry.contains h

/-- The handles that are live, in order of registration. -/
def liveHandles (w : World) : List HandleId :=
  w.hub.registry.filter w.isLive

/-- Finish the work in the mailbox of a handle with an error. -/
def drainMailbox (w : World) (h : HandleId) (error : HostError) : World :=
  match w.handles.get? h with
  | none => w
  | some handle =>
    let (waiting, mailbox) := handle.mailbox.drain
    let w := w.modifyHandle h fun handle => { handle with mailbox }
    waiting.foldl (fun w queued => w.answerQueued queued (.error error)) w

/-- Make a handle a deleted one, once: it leaves the registry, its waiting work is answered and its
closures are dropped. -/
def markDeleted (w : World) (h : HandleId) : World :=
  match w.handles.get? h with
  | none => w
  | some handle =>
    if handle.deleted then w
    else
      let w := w.modifyHandle h fun handle => { handle with deleted := true }
      let w := (w.unregister h).drainMailbox h .deleted
      w.modifyHandle h fun handle =>
        { handle with callbacks := handle.callbacks.clear, evaluator := none }

end World

end ScriptHost
