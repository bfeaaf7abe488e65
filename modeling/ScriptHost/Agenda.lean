import ScriptHost.EventFlags
import ScriptHost.Table

/-!
# The agenda of a thread

Every thread has one agenda with three kinds of pending work: events that other threads posted,
timers, and idle handlers. Posted events and idle handlers are served in the order in which they
came, timers in the order of their deadlines and, of equal deadlines, of their creation. Posted
events come before timers that are due, and these before idle handlers.
-/

namespace ScriptHost

/-- Names a timer or an idle handler of one agenda. -/
abbrev Token := Nat

/-- A time on the clock, in microseconds. -/
abbrev Time := Nat

/-- The time that a number of milliseconds takes. -/
def milliseconds (n : Nat) : Time :=
  1000 * n

/-- A timer that waits for its deadline. -/
structure Timer (η : Type) where
  deadline : Time
  token : Token
  handler : η

/-- What becomes of pending work: of events, and of timers and idle handlers by their tokens. -/
inductive Agenda.Deed (ε : Type)
  | posted (event : ε)
  | served (event : ε)
  | created (token : Token)
  | started (token : Token)
  | cancelled (token : Token)

/-- The pending work of one thread. -/
structure Agenda (ε η : Type) where
  /-- Posted events, the oldest first. -/
  events : List ε := []
  /-- Whether the thread is to stop waiting. -/
  alerted : Bool := false
  /-- Timers in the order in which they are due. -/
  timers : List (Timer η) := []
  /-- The deadline of every pending timer. -/
  deadlines : Table Token Time := .empty
  /-- Idle handlers, the oldest first. -/
  idle : List (Token × η) := []
  nextToken : Token := 1
  /-- What became of the work so far, the newest first. It is kept for whoever looks at the agenda from
  outside; no code reads it. -/
  record : List (Agenda.Deed ε) := []

namespace Agenda

variable {ε η : Type}

/-- Work taken off an agenda. -/
inductive Work (ε η : Type)
  | event (event : ε)
  | timer (handler : η)
  | idle (handler : η)

/-- Put a timer behind those that are due before it or at the same time. -/
def insertTimer (t : Timer η) : List (Timer η) → List (Timer η)
  | [] => [t]
  | s :: rest => if s.deadline ≤ t.deadline then s :: insertTimer t rest else t :: s :: rest

/-- Append an event. The thread is not woken. -/
def post (a : Agenda ε η) (event : ε) : Agenda ε η :=
  { a with events := a.events ++ [event], record := .posted event :: a.record }

/-- Make the thread stop waiting. -/
def alert (a : Agenda ε η) : Agenda ε η :=
  { a with alerted := true }

/-- Add a timer and answer its token. -/
def addTimer (a : Agenda ε η) (deadline : Time) (handler : η) : Token × Agenda ε η :=
  (a.nextToken,
    { a with
      timers := insertTimer ⟨deadline, a.nextToken, handler⟩ a.timers
      deadlines := a.deadlines.insert a.nextToken deadline
      nextToken := a.nextToken + 1
      record := .created a.nextToken :: a.record })

/-- Cancel a timer and answer whether it was pending. -/
def cancelTimer (a : Agenda ε η) (token : Token) : Bool × Agenda ε η :=
  match a.deadlines.get? token with
  | none => (false, a)
  | some deadline =>
    let found := a.timers.any fun t => t.deadline = deadline ∧ t.token = token
    (found,
      { a with
        timers := a.timers.filter fun t => ¬(t.deadline = deadline ∧ t.token = token)
        deadlines := a.deadlines.erase token
        record := if found then .cancelled token :: a.record else a.record })

/-- Add an idle handler and answer its token. -/
def addIdle (a : Agenda ε η) (handler : η) : Token × Agenda ε η :=
  (a.nextToken,
    { a with
      idle := a.idle ++ [(a.nextToken, handler)]
      nextToken := a.nextToken + 1
      record := .created a.nextToken :: a.record })

/-- Cancel an idle handler and answer whether it was pending. -/
def cancelIdle (a : Agenda ε η) (token : Token) : Bool × Agenda ε η :=
  let found := a.idle.any fun entry => entry.1 = token
  (found,
    { a with
      idle := a.idle.filter fun entry => entry.1 ≠ token
      record := if found then .cancelled token :: a.record else a.record })

/-- The oldest posted event. -/
def popEvent? (a : Agenda ε η) : Option (Work ε η × Agenda ε η) :=
  match a.events with
  | [] => none
  | event :: rest =>
    some (.event event, { a with events := rest, record := .served event :: a.record })

/-- The first timer, if it is due. -/
def popTimer? (a : Agenda ε η) (now : Time) : Option (Work ε η × Agenda ε η) :=
  match a.timers with
  | [] => none
  | t :: rest =>
    if now < t.deadline then none
    else
      some (.timer t.handler,
        { a with
          timers := rest
          deadlines := a.deadlines.erase t.token
          record := .started t.token :: a.record })

/-- The oldest idle handler. -/
def popIdle? (a : Agenda ε η) : Option (Work ε η × Agenda ε η) :=
  match a.idle with
  | [] => none
  | (token, handler) :: rest =>
    some (.idle handler, { a with idle := rest, record := .started token :: a.record })

/-- The work to serve next under some flags. -/
def next? (a : Agenda ε η) (flags : EventFlags) (now : Time) :
    Option (Work ε η × Agenda ε η) :=
  let event := if flags.intersects .posted then a.popEvent? else none
  let timer := if flags.contains .timer then a.popTimer? now else none
  let idle := if flags.contains .idle then a.popIdle? else none
  event <|> timer <|> idle

/-- The deadline of the timer that is due first. -/
def nextDeadline? (a : Agenda ε η) : Option Time :=
  a.timers.head?.map (·.deadline)

/-- Whether any work is pending. -/
def hasPending (a : Agenda ε η) : Bool :=
  !a.events.isEmpty || !a.timers.isEmpty || !a.idle.isEmpty

/-- The agenda of a thread that ends: nobody will serve its events. -/
def clear (_ : Agenda ε η) : Agenda ε η := {}

end Agenda

end ScriptHost
