import ScriptHost.Proofs.Stress.Evaluation

/-!
# Stress runs in any order

Any number of callers make their calls one after the other, each waiting for the answer before the
next one, while the owner of the handle serves them in its loop. The machine of this module lets one
of them make one move at a time, in any order: it is only fixed what each of them does next.

Between the moves time may pass, and the loop of the owner may do what it does besides serving. There
is no timeout, nobody interrupts the host, and the handle is not deleted.
-/

namespace ScriptHost

namespace World

/-- The world with some thread running. -/
def as (w : World) (t : ThreadId) : World :=
  { w with current := t }

/-- How often the closure that doubles was run. -/
def doublings (w : World) : Nat :=
  w.trace.countP fun incident =>
    match incident.what with
    | .ran .double => true
    | _ => false

/-- A call runs the closure once. -/
theorem doublings_counted (w : World) (h : HandleId) (i : InterpId) (c : Nat) :
    (w.counted h i c).doublings = w.doublings + 1 := by
  simp [doublings, counted, record, modifyInterp]

end World

namespace Cli.Stress

/-- What the calls of a run are about. -/
structure Plan where
  handle : HandleId
  owner : ThreadId
  /-- The id of the closure. -/
  id : String
  /-- How many calls each caller makes. -/
  count : Nat

/-- How far a caller is with a call. -/
inductive Stage
  /-- No call is under way. -/
  | ready
  /-- The handle was not deleted when the caller looked. -/
  | checked
  /-- The work is in the mailbox. -/
  | pushed (r : ReplyId)
  /-- The owner is told. -/
  | posted (r : ReplyId)
  | waiting (r : ReplyId)

/-- A caller with the results of the calls that it made. -/
structure Caller where
  stage : Stage := .ready
  results : List (Except HostError String) := []

/-- A state of a run. -/
structure State where
  world : World
  callers : List Caller
  /-- The work that the owner is serving, with its envelope once it is executed. -/
  serving : Option (Queued × Option Envelope) := none

/-- Some callers who have not begun. -/
def State.start (w : World) (callers : Nat) : State :=
  { world := w, callers := List.replicate callers {} }

/-- The work of a call with a reply for its caller. -/
def Plan.work (p : Plan) (j : Nat) (r : ReplyId) : Queued :=
  ⟨.eval (script p.id j), some r⟩

/-- What the owner does when work is executed: it counts it, answers its caller and lets the handle
go that it held meanwhile. -/
def conclude (h : HandleId) (queued : Queued) (envelope : Envelope) : Act Unit := do
  modify fun w => w.finishWork h envelope.failed
  Handle.reply engine queued envelope
  Handle.release engine h

/-- One move of a caller or of the owner. -/
inductive Move (p : Plan) : State → State → Prop
  /-- A caller begins its next call and finds that the handle is not deleted. -/
  | check {s : State} {before after : List Caller} {results : List (Except HostError String)}
      (hcallers : s.callers = before ++ ⟨.ready, results⟩ :: after)
      (hcount : results.length < p.count) (hlive : s.world.isDeleted p.handle = false) :
      Move p s { s with callers := before ++ ⟨.checked, results⟩ :: after }
  /-- A caller puts its work into the mailbox. -/
  | push {s : State} {before after : List Caller} {results : List (Except HostError String)}
      (hcallers : s.callers = before ++ ⟨.checked, results⟩ :: after)
      (hcalm : s.world.hub.interrupted = false) :
      Move p s { s with
        world := s.world.newReply.2.modifyHandle p.handle fun handle =>
          { handle with
            mailbox := handle.mailbox.push (p.work results.length s.world.newReply.1) }
        callers := before ++ ⟨.pushed s.world.newReply.1, results⟩ :: after }
  /-- A caller tells the owner. -/
  | post {s : State} {before after : List Caller} {results : List (Except HostError String)}
      {r : ReplyId} (hcallers : s.callers = before ++ ⟨.pushed r, results⟩ :: after)
      (hthere : s.world.isRegistered (s.world.ownerOf p.handle) = true) :
      Move p s { s with
        world := s.world.post (s.world.ownerOf p.handle) (.serve p.handle)
        callers := before ++ ⟨.posted r, results⟩ :: after }
  /-- A caller finds again that the handle is not deleted. -/
  | recheck {s : State} {before after : List Caller} {results : List (Except HostError String)}
      {r : ReplyId} (hcallers : s.callers = before ++ ⟨.posted r, results⟩ :: after)
      (hlive : s.world.isDeleted p.handle = false) :
      Move p s { s with callers := before ++ ⟨.waiting r, results⟩ :: after }
  /-- A caller finds an answer to its call. -/
  | receive {s : State} {before after : List Caller} {results : List (Except HostError String)}
      {r : ReplyId} {result : Except HostError Envelope}
      (hcallers : s.callers = before ++ ⟨.waiting r, results⟩ :: after)
      (hresult : Handle.replyState s.world p.handle r none = some result) :
      Move p s { s with
        callers := before ++
          ⟨.ready, results ++ [Handle.textOf (Handle.productOf result)]⟩ :: after }
  /-- The owner takes an event off its agenda and the oldest work out of the mailbox. -/
  | take {s : State} {a : Agenda Event Handler} {queued : Queued} {w : World}
      (hidle : s.serving = none)
      (hnext : (s.world.as p.owner).agenda.next? .all s.world.clock =
        some (.event (.serve p.handle), a))
      (htake : ((s.world.as p.owner).takeOff a).takeWork? p.handle = some (queued, w)) :
      Move p s { s with world := w, serving := some (queued, none) }
  /-- The owner executes the work. -/
  | execute {s : State} {queued : Queued} {envelope : Envelope} {w : World}
      (hserving : s.serving = some (queued, none))
      (hexecute : Handle.executeQueued engine p.handle queued.work (s.world.as p.owner) =
        .ok (envelope, none) w) :
      Move p s { s with world := w, serving := some (queued, some envelope) }
  /-- The owner answers the caller. -/
  | finish {s : State} {queued : Queued} {envelope : Envelope} {w : World}
      (hserving : s.serving = some (queued, some envelope))
      (hconclude : conclude p.handle queued envelope (s.world.as p.owner) = .ok () w) :
      Move p s { s with world := w, serving := none }

/-- A handle apart from a request to stop its loop. -/
def unasked (handle : Handle) : Handle :=
  { handle with stopRequested := false }

theorem exists_eq_of_unasked {handle handle' : Handle} (h : unasked handle' = unasked handle) :
    ∃ stopRequested, handle' = { handle with stopRequested } := by
  refine ⟨handle'.stopRequested, ?_⟩
  have hrestored : handle' = { unasked handle' with stopRequested := handle'.stopRequested } := rfl
  rw [hrestored, h]
  rfl

/-- A change of the world that is none of the callers' and has nothing to do with serving them: time
passes, or the loop of the owner arms its timer or asks whether it is to stop. -/
structure Aside (p : Plan) (w w' : World) : Prop where
  handle : (w'.handles.get? p.handle).map unasked = (w.handles.get? p.handle).map unasked
  interp : ∀ i, w.interpOf? p.handle = some i → w'.interp i = w.interp i
  replies : w'.replies = w.replies
  nextReply : w'.nextReply = w.nextReply
  events : (w'.agendaOf p.owner).events = (w.agendaOf p.owner).events
  registered : w'.isRegistered p.owner = w.isRegistered p.owner
  interrupted : w'.hub.interrupted = w.hub.interrupted
  doublings : w'.doublings = w.doublings

/-- What happens besides the moves. -/
inductive Rest (p : Plan) : State → State → Prop
  | aside {s : State} {w : World} (haside : Aside p s.world w) : Rest p s { s with world := w }
  /-- The owner takes an event off its agenda and finds no work. -/
  | vain {s : State} {a : Agenda Event Handler} (hidle : s.serving = none)
      (hnext : (s.world.as p.owner).agenda.next? .all s.world.clock =
        some (.event (.serve p.handle), a))
      (htake : ((s.world.as p.owner).takeOff a).takeWork? p.handle = none) :
      Rest p s { s with world := (s.world.as p.owner).takeOff a }

/-- A run with its number of moves. -/
inductive Run (p : Plan) (s : State) : Nat → State → Prop
  | start : Run p s 0 s
  | move {n : Nat} {s' s'' : State} (hrun : Run p s n s') (hmove : Move p s' s'') :
      Run p s (n + 1) s''
  | rest {n : Nat} {s' s'' : State} (hrun : Run p s n s') (hrest : Rest p s' s'') : Run p s n s''

/-- A world in which a run may start: the handle is held, nothing was handed over that is not
finished, and none of its work failed. The interpreter is idle with the counter at zero. -/
structure Plan.Ready (p : Plan) (w : World) (i : InterpId) (handle : Handle) : Prop where
  present : w.handles.get? p.handle = some handle
  owner : handle.owner = p.owner
  live : handle.deleted = false
  interp : handle.interp = some i
  held : 0 < handle.holders
  callback : handle.callbacks.find? p.id = some .double
  queue : handle.mailbox.queue = []
  completed : handle.mailbox.completed = handle.mailbox.submitted
  failed : handle.mailbox.failed = 0
  registered : w.isRegistered p.owner = true
  events : (w.agendaOf p.owner).events = []
  calm : w.hub.interrupted = false
  counting : w.Counting p.handle i p.id 0

end Cli.Stress

end ScriptHost
