import ScriptHost.Proofs.World.Handles
import Mathlib.Data.Multiset.Count
import Mathlib.Logic.Relation

/-!
# The dispatch of one handle

Any number of calls hand work over to the owner of a handle or delete the handle, while the owning
thread serves the mailbox, also from event loops within the work that it is executing. The machine
of this module takes one step of one party at a time, in any order.

Besides the world a state says how far every call is and which work is being executed, and it keeps
the history of the mailbox: what was pushed, what left it and with which fate, and with which
envelope work was finished. The `n`-th piece of work is the `n`-th that was pushed.
-/

namespace ScriptHost

/-- Finish the oldest work in the mailbox of a handle with an error. -/
def World.refuse? (w : World) (h : HandleId) (error : HostError) : Option (Queued × World) :=
  match w.handles.get? h with
  | none => none
  | some handle =>
    handle.mailbox.pop?.map fun (queued, mailbox) =>
      (queued, (w.modifyHandle h fun handle => { handle with mailbox := mailbox.finish true })
        |>.answerQueued queued (.error error))

theorem World.refuse?_eq_some {w w' : World} {h : HandleId} {error : HostError} {handle : Handle}
    {queued : Queued} (hh : w.handles.get? h = some handle)
    (hrefuse : w.refuse? h error = some (queued, w')) :
    ∃ rest, handle.mailbox.queue = queued :: rest ∧
      w' = (w.modifyHandle h fun u =>
        { u with mailbox := { handle.mailbox with queue := rest }.finish true }).answerQueued queued
          (.error error) := by
  unfold refuse? Mailbox.pop? at hrefuse
  rw [hh] at hrefuse
  dsimp only at hrefuse
  split at hrefuse
  · cases hrefuse
  · next first rest hqueue =>
    cases hrefuse
    exact ⟨rest, hqueue, rfl⟩

theorem World.queue_eq_nil_of_refuse? {w : World} {h : HandleId} {error : HostError}
    {handle : Handle} (hh : w.handles.get? h = some handle) (hrefuse : w.refuse? h error = none) :
    handle.mailbox.queue = [] := by
  unfold refuse? Mailbox.pop? at hrefuse
  rw [hh] at hrefuse
  dsimp only at hrefuse
  split at hrefuse
  · assumption
  · cases hrefuse

/-- A new piece of work, with a new reply if its caller waits. -/
inductive World.Request (w : World) : Queued → World → Prop
  | silent (work : Work) : Request w ⟨work, none⟩ w
  | waiting (work : Work) : Request w ⟨work, some w.newReply.1⟩ w.newReply.2

namespace Dispatch

/-- Why work is not executed. -/
inductive Refusal
  | deleted
  | ownerGone
deriving DecidableEq

/-- The error that answers work that is not executed. -/
def Refusal.error : Refusal → HostError
  | deleted => .deleted
  | ownerGone => .ownerGone

/-- What became of work that left the mailbox. -/
inductive Fate
  | executed
  | refused (refusal : Refusal)
deriving DecidableEq

/-- How far a call is that hands work over or deletes the handle. -/
inductive Call
  /-- The handle was not deleted when the call looked. -/
  | checked
  /-- The work is in the mailbox. -/
  | pushed
  /-- The owning thread is told. -/
  | posted
  /-- The call takes work out of the mailbox until it finds none. -/
  | draining (refusal : Refusal)
deriving DecidableEq

/-- Whether a call is going to look again for work that nobody serves. -/
def Call.mayDrain : Call → Bool
  | checked => false
  | pushed | posted | draining _ => true

/-- Work that is being executed. -/
inductive Running
  /-- The `n`-th piece of work. -/
  | served (n : Nat) (queued : Queued)
  /-- Work of the owning thread, executed in place. -/
  | here

/-- The number of work that came from the mailbox. -/
def Running.number? : Running → Option Nat
  | served n _ => some n
  | here => none

/-- A state of the dispatch. -/
structure State where
  world : World
  /-- The calls under way. -/
  calls : Multiset Call := 0
  /-- How many posted events are still to be run. -/
  wakes : Nat := 0
  /-- Whether an event could not be posted. -/
  lost : Bool := false
  /-- What the owning thread is executing, the innermost first. -/
  running : List Running := []
  pushed : List Queued := []
  left : List (Queued × Fate) := []
  finished : List (Nat × Envelope) := []

/-- A change of the world that leaves the mailbox of a handle and the answers to its callers alone.
The handle goes on to exist, as its callers hold it. -/
structure Keeps (h : HandleId) (pushed : List Queued) (w w' : World) : Prop where
  handle : ∀ handle, w.handles.get? h = some handle → ∃ handle', w'.handles.get? h = some handle' ∧
    handle'.mailbox = handle.mailbox ∧ handle'.deleted = handle.deleted ∧
    (handle.exists = true → handle'.exists = true)
  nextReply : w.nextReply ≤ w'.nextReply
  answer : ∀ queued ∈ pushed, ∀ r, queued.reply = some r →
    ∀ reply, w.replies.get? r = some reply →
      ∃ reply', w'.replies.get? r = some reply' ∧ reply'.answer = reply.answer

/-- One step of one party. -/
inductive Step (h : HandleId) : State → State → Prop
  /-- Something else happens. -/
  | rest {s : State} {w : World} : Keeps h s.pushed s.world w → Step h s { s with world := w }
  /-- A call finds that the handle is not deleted. -/
  | check {s : State} : s.world.isDeleted h = false →
      Step h s { s with calls := .checked ::ₘ s.calls }
  /-- A call ends without handing anything over, because of an interrupt. -/
  | leave {s : State} {calls : Multiset Call} : s.calls = .checked ::ₘ calls →
      Step h s { s with calls }
  | push {s : State} {calls : Multiset Call} {queued : Queued} {w : World} :
      s.calls = .checked ::ₘ calls → s.world.Request queued w →
      Step h s { s with
        world := w.modifyHandle h fun handle =>
          { handle with mailbox := handle.mailbox.push queued }
        calls := .pushed ::ₘ calls
        pushed := s.pushed ++ [queued] }
  /-- The owning thread is told to serve one piece of work. -/
  | post {s : State} {calls : Multiset Call} : s.calls = .pushed ::ₘ calls →
      Step h s { s with
        world := s.world.post (s.world.ownerOf h) (.serve h)
        calls := .posted ::ₘ calls
        wakes := s.wakes + 1 }
  /-- The owning thread cannot be told, or not be woken any more. -/
  | postLost {s : State} {calls : Multiset Call} (told : Bool) : s.calls = .pushed ::ₘ calls →
      Step h s { s with
        calls := .draining .ownerGone ::ₘ calls
        wakes := s.wakes + told.toNat
        lost := true }
  /-- A call finds again that the handle is not deleted, and ends. -/
  | finishCall {s : State} {calls : Multiset Call} : s.calls = .posted ::ₘ calls →
      s.world.isDeleted h = false → Step h s { s with calls }
  /-- A call finds that the handle was deleted in the meantime. -/
  | recheck {s : State} {calls : Multiset Call} : s.calls = .posted ::ₘ calls →
      s.world.isDeleted h = true → Step h s { s with calls := .draining .deleted ::ₘ calls }
  /-- A call deletes the handle. A handle that is deleted already stays as it is. -/
  | delete {s : State} : s.world.isDeleted h = false →
      Step h s { s with
        world := s.world.modifyHandle h fun handle => { handle with deleted := true }
        calls := .draining .deleted ::ₘ s.calls }
  /-- A call that drains the mailbox takes the oldest work out. -/
  | refuse {s : State} {refusal : Refusal} {queued : Queued} {w : World} :
      .draining refusal ∈ s.calls → s.world.refuse? h refusal.error = some (queued, w) →
      Step h s { s with
        world := w
        left := s.left ++ [(queued, .refused refusal)]
        finished := s.finished ++ [(s.left.length, .error refusal.error)] }
  /-- A call that drains the mailbox finds it empty, and ends. -/
  | drained {s : State} {calls : Multiset Call} {refusal : Refusal} :
      s.calls = .draining refusal ::ₘ calls → s.world.refuse? h refusal.error = none →
      Step h s { s with calls }
  /-- An event starts the oldest work. -/
  | wake {s : State} {wakes : Nat} {queued : Queued} {w : World} {i : InterpId} :
      s.wakes = wakes + 1 → s.world.takeWork? h = some (queued, w) → w.interpOf? h = some i →
      Step h s { s with
        world := w
        wakes
        running := .served s.left.length queued :: s.running
        left := s.left ++ [(queued, .executed)] }
  /-- An event answers the oldest work, as the interpreter is gone. -/
  | wakeGone {s : State} {wakes : Nat} {queued : Queued} {w : World} :
      s.wakes = wakes + 1 → s.world.takeWork? h = some (queued, w) → w.interpOf? h = none →
      Step h s { s with
        world := (w.finishWork h true).answerQueued queued (.error .deleted)
        wakes
        left := s.left ++ [(queued, .refused .deleted)]
        finished := s.finished ++ [(s.left.length, .error .deleted)] }
  /-- An event finds no work. -/
  | wakeIdle {s : State} {wakes : Nat} : s.wakes = wakes + 1 → s.world.takeWork? h = none →
      Step h s { s with wakes }
  /-- The innermost work ends. -/
  | finish {s : State} {running : List Running} {n : Nat} {queued : Queued}
      (envelope : Envelope) : s.running = .served n queued :: running →
      Step h s { s with
        world := (s.world.finishWork h envelope.failed).answerQueued queued envelope
        running
        finished := s.finished ++ [(n, envelope)] }
  /-- The owning thread executes work in place. -/
  | startHere {s : State} :
      Step h s { s with world := s.world.startWork h, running := .here :: s.running }
  /-- The innermost work ends, which was executed in place. -/
  | finishHere {s : State} {running : List Running} (failed : Bool) :
      s.running = .here :: running →
      Step h s { s with world := s.world.finishWork h failed, running }

/-- Any number of steps. -/
def Steps (h : HandleId) : State → State → Prop :=
  Relation.ReflTransGen (Step h)

end Dispatch

end ScriptHost
