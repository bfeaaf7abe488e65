import ScriptHost.Act

/-!
# Waiting and taking turns

A thread that waits lets the other threads go on. The clock advances only when none of them can do
anything, and then to the next deadline of any thread.
-/

namespace ScriptHost

namespace World

/-- Whether a thread may take a turn: it has something to do by itself and is not under way. -/
def mayMove (w : World) (t : ThreadId) : Bool :=
  !w.engaged.contains t &&
    match w.threads.get? t with
    | some { role := .serving _, .. } => true
    | some { role := .looping .., .. } => true
    | _ => false

/-- The earlier of two times that may be missing. -/
def earlier : Option Time → Option Time → Option Time
  | some a, some b => some (min a b)
  | some a, none => some a
  | none, b => b

/-- The deadline for which a thread waits in its loop. -/
def deadlineOf? (w : World) (t : ThreadId) : Option Time :=
  match w.threads.get? t with
  | some { role := .looping .., agenda, .. } => agenda.nextDeadline?
  | _ => none

/-- The next deadline of the threads that may take a turn. -/
def nextDeadline? (w : World) : Option Time :=
  (w.threads.keys.filter w.mayMove).foldl (fun found t => earlier found (w.deadlineOf? t)) none

/-- Advance the clock; it never goes back. -/
def advanceTo (w : World) (time : Time) : World :=
  { w with clock := max w.clock time }

end World

/-- Let the first of some threads that can do anything do it. -/
def moveFirst (e : Engine) : List ThreadId → Act Bool
  | [] => pure false
  | t :: rest => do
    if (← get).mayMove t then
      modify fun w => w.record (.yielded t)
      if ← e.call (.turn t) then return true else moveFirst e rest
    else moveFirst e rest

/-- Let another thread go on. -/
def moveOther (e : Engine) : Act Bool := do
  moveFirst e (← get).threads.keys

/-- Wait until something holds or a deadline has come, for a number of rounds. When no other thread
can do anything, `hopeless` may end the waiting too. -/
def waitRounds (e : Engine) (ready hopeless : World → Bool) (deadline : Option Time) :
    Nat → Act Unit
  | 0 => Act.halt .stalled
  | rounds + 1 => do
    let w ← get
    if ready w || deadline.any (· ≤ w.clock) then return
    if ← moveOther e then waitRounds e ready hopeless deadline rounds
    else
      let w ← get
      if hopeless w then return
      match World.earlier deadline w.nextDeadline? with
      | none => Act.halt .stalled
      | some time =>
        set (w.advanceTo time)
        waitRounds e ready hopeless deadline rounds

/-- Wait until something holds, nothing more can come or a deadline has come. -/
def waitUntil (e : Engine) (ready hopeless : World → Bool) (deadline : Option Time) : Act Unit :=
  waitRounds e ready hopeless deadline e.fuel

/-- Wait for a number of milliseconds. -/
def sleep (e : Engine) (ms : Nat) : Act Unit := do
  let now := (← get).clock
  waitUntil e (fun _ => false) (fun _ => false) (some (now + milliseconds ms))

end ScriptHost
