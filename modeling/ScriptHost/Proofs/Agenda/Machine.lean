import ScriptHost.Proofs.Agenda.Sound

/-!
# The notifier of one thread

A thread accepts handlers, cancels them and serves them, one in each call. While a handler is served
it may do any of these things itself, call again for work, or unwind, which ends the call that serves
it. The machine of this module makes one such move at a time.

The handlers on an agenda are closures, which the agenda only keeps and hands over. Here the closure
of a handler is its name, so it is the queues that say which handler a call took off.
-/

namespace ScriptHost

namespace Notifier

/-- The name of a handler. -/
inductive Item
  /-- An event that was accepted after `n` other handlers. -/
  | event (n : Nat)
  | timer (token : Token)
  | idle (token : Token)
deriving DecidableEq, Repr

/-- The token of a timer or an idle handler. -/
def Item.token? : Item → Option Token
  | event _ => none
  | timer token => some token
  | idle token => some token

/-- How far a call is that serves one handler. -/
inductive Phase
  /-- It looks for work, after it has waited or for the first time. -/
  | looking (waited : Bool)
  | waiting
  | serving
deriving DecidableEq, Repr

/-- A call that serves one handler. -/
structure Call where
  flags : EventFlags
  phase : Phase := .looking false
  /-- What the call itself took off the queues. -/
  taken : List Item := []
deriving Repr

/-- A thread with the history of its handlers. -/
structure State where
  agenda : Agenda Item Item := {}
  clock : Time := 0
  /-- The calls under way, the innermost first. -/
  calls : List Call := []
  accepted : List Item := []
  started : List Item := []
  /-- The handlers whose cancelling was answered with yes. -/
  cancelled : List Item := []
  /-- What the calls that ended answered, and what they had taken off the queues. -/
  returned : List (Bool × List Item) := []
  /-- What the calls had taken off the queues that ended because their handler unwound. -/
  unwound : List (List Item) := []

/-- A move of the thread; any thread may post an event or wake it, and time passes by itself. -/
inductive Move
  | createTimer (delay : Time)
  | deleteTimer (token : Token)
  | doWhenIdle
  | cancelIdle (token : Token)
  | post
  | alert
  | elapse (time : Time)
  /-- A call for work begins. -/
  | call (flags : EventFlags)
  /-- The innermost call looks for work: it serves what it finds, waits once, or ends. -/
  | look
  /-- The innermost call stops waiting. It may do so for no reason. -/
  | wake
  /-- The handler that is being served returns. -/
  | finish
  /-- The handler that is being served unwinds. -/
  | unwind
deriving Repr

/-- The name of the handler that was taken off. -/
def itemOf : Agenda.Work Item Item → Item
  | .event item => item
  | .timer item => item
  | .idle item => item

namespace State

/-- Whether code of the thread is running, so that the thread can make a move. -/
def running (s : State) : Bool :=
  match s.calls with
  | [] => true
  | call :: _ => call.phase = .serving

/-- Accept an event. -/
def post (s : State) : State :=
  let item := .event s.accepted.length
  { s with agenda := s.agenda.post item, accepted := s.accepted ++ [item] }

/-- Accept a timer. -/
def createTimer (s : State) (delay : Time) : State :=
  let item := .timer s.agenda.nextToken
  { s with
    agenda := (s.agenda.addTimer (s.clock + delay) item).2
    accepted := s.accepted ++ [item] }

/-- Accept an idle handler. -/
def doWhenIdle (s : State) : State :=
  let item := .idle s.agenda.nextToken
  { s with agenda := (s.agenda.addIdle item).2, accepted := s.accepted ++ [item] }

/-- Note how a handler was cancelled: whether that was answered with yes, and what is left. -/
def cancel (s : State) (item : Item) (result : Bool × Agenda Item Item) : State :=
  { s with
    agenda := result.2
    cancelled := if result.1 then s.cancelled ++ [item] else s.cancelled }

/-- Cancel a timer. -/
def deleteTimer (s : State) (token : Token) : State :=
  s.cancel (.timer token) (s.agenda.cancelTimer token)

/-- Cancel an idle handler. -/
def cancelIdle (s : State) (token : Token) : State :=
  s.cancel (.idle token) (s.agenda.cancelIdle token)

/-- Begin a call. -/
def call (s : State) (flags : EventFlags) : State :=
  { s with calls := { flags := flags.normalize } :: s.calls }

/-- Let the innermost call look for work. A call may wait once, unless its flags forbid it, and does
so at once if there are events that its flags do not cover. -/
def look (s : State) : State :=
  match s.calls with
  | { flags, phase := .looking waited, taken } :: calls =>
    match s.agenda.next? flags s.clock with
    | some (work, agenda) =>
      { s with
        agenda
        calls := { flags, phase := .serving, taken := taken ++ [itemOf work] } :: calls
        started := s.started ++ [itemOf work] }
    | none =>
      if flags.contains .dontWait || waited then
        { s with calls, returned := s.returned ++ [(false, taken)] }
      else if s.agenda.events.isEmpty then
        { s with calls := { flags, phase := .waiting, taken } :: calls }
      else { s with calls := { flags, phase := .looking true, taken } :: calls }
  | _ => s

/-- Let the innermost call stop waiting. -/
def wake (s : State) : State :=
  match s.calls with
  | { flags, phase := .waiting, taken } :: calls =>
    { s with
      agenda := { s.agenda with alerted := false }
      calls := { flags, phase := .looking true, taken } :: calls }
  | _ => s

/-- Let the handler return that the innermost call serves. -/
def finish (s : State) : State :=
  match s.calls with
  | { phase := .serving, taken, .. } :: calls =>
    { s with calls, returned := s.returned ++ [(true, taken)] }
  | _ => s

/-- Let the handler unwind that the innermost call serves. -/
def unwind (s : State) : State :=
  match s.calls with
  | { phase := .serving, taken, .. } :: calls =>
    { s with calls, unwound := s.unwound ++ [taken] }
  | _ => s

/-- Make a move, if it can be made. -/
def step (s : State) : Move → State
  | .createTimer delay => if s.running then s.createTimer delay else s
  | .deleteTimer token => if s.running then s.deleteTimer token else s
  | .doWhenIdle => if s.running then s.doWhenIdle else s
  | .cancelIdle token => if s.running then s.cancelIdle token else s
  | .post => s.post
  | .alert => { s with agenda := s.agenda.alert }
  | .elapse time => { s with clock := s.clock + time }
  | .call flags => if s.running then s.call flags else s
  | .look => s.look
  | .wake => s.wake
  | .finish => s.finish
  | .unwind => s.unwind

/-- Make moves one after the other. -/
def run (s : State) (moves : List Move) : State :=
  moves.foldl step s

end State

end Notifier

end ScriptHost
