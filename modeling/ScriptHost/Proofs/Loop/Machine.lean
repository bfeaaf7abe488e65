import Mathlib.Logic.Relation
import ScriptHost.Proofs.Run.Course

/-!
# The timers of loops

While a loop runs, a timer keeps it from waiting without end. The loop arms the timer in each of its
rounds unless it is pending, the timer arms itself again when it is served, and the loop stops it at
the end. The machine of this module does these things for all loops, one at a time and in any order,
on whatever thread is running. Everything else at most takes timers of loops away.

A loop that runs in the middle of other code is at home on its thread. While it serves its rounds, all
that other code may do for it is to let its timer arm itself.
-/

namespace ScriptHost

/-- How far a loop is, and whether its timer may be armed. -/
def Loop.stage (loop : Loop) : LoopPhase × Bool :=
  (loop.phase, loop.active)

/-! ### What leaves loops alone -/

/-- No timer of a loop is added, and tokens stay unique. -/
structure Agenda.Dwindles (a a' : Agenda Event Handler) : Prop where
  sound : a.Sound → a'.Sound
  timers : ∀ timer ∈ a'.timers, ∀ l, timer.handler.loop? = some l → timer ∈ a.timers
  idle : ∀ entry ∈ a'.idle, ∀ l, entry.2.loop? = some l → entry ∈ a.idle

namespace World

/-- The loop that a thread runs by itself. -/
def loopOf? (w : World) (t : ThreadId) : Option LoopId :=
  (w.threads.get? t).bind (·.role.loop?)

/-- The timers of a loop that are pending on a thread. -/
def keepalives (w : World) (t : ThreadId) (l : LoopId) : List (Timer Handler) :=
  (w.agendaOf t).timers.filter fun timer => timer.handler.loop? = some l

/-- How far a loop is, and whether its timer may be armed. -/
def stageOf? (w : World) (l : LoopId) : Option (LoopPhase × Bool) :=
  (w.loops.get? l).map Loop.stage

/-- No thread gets a timer of a loop or begins to run a loop, and no loop is made, has its timer changed
or goes on to another phase. -/
structure Dwindles (w w' : World) : Prop where
  agendas : ∀ t, (w.agendaOf t).Dwindles (w'.agendaOf t)
  watch : ∀ l, (w'.loops.get? l).map Loop.watch = (w.loops.get? l).map Loop.watch
  nextLoop : w'.nextLoop = w.nextLoop
  loopOf : ∀ t l, w'.loopOf? t = some l → w.loopOf? t = some l

end World

/-! ### Steps -/

namespace Keepalive

/-- The threads of the loops that run in the middle of other code. -/
abbrev Homes := LoopId → Option ThreadId

/-- No loop runs in the middle of other code. -/
def nowhere : Homes :=
  fun _ => none

/-- One loop runs in the middle of other code. -/
def within (l : LoopId) (t : ThreadId) : Homes :=
  fun l' => if l' = l then some t else none

/-- What may happen to loops and their timers. -/
inductive Step (homes : Homes) : World → World → Prop
  | pass {w w' : World} (h : w.Dwindles w') : Step homes w w'
  /-- The timer of a loop is served. -/
  | rearm {w : World} {flags : EventFlags} {work : Agenda.Work Event Handler}
      {a : Agenda Event Handler} {l : LoopId}
      (hnext : w.agenda.next? flags w.clock = some (work, a)) (hloop : work.loop? = some l) :
      Step homes w ((w.takeOff a).armKeepalive l)
  /-- A loop arms its timer, at home if it has one. -/
  | arm (w : World) {l : LoopId} (hhome : ∀ t, homes l = some t → w.current = t) :
      Step homes w (w.ensureArmed l)
  | stop (w : World) {l : LoopId} (hfree : homes l = none) : Step homes w (w.stopKeepalive l)
  | setPhase (w : World) {l : LoopId} (hfree : homes l = none) (phase : LoopPhase) :
      Step homes w (w.setPhase l phase)
  | newLoop (w : World) (interval : Interval) : Step homes w (w.newLoop interval).2
  /-- A thread begins to run a loop by itself. -/
  | assign (w : World) (h : HandleId) {l : LoopId} (hknown : l < w.nextLoop) (hfree : homes l = none)
      (t : ThreadId) : Step homes w (w.modifyThread t fun thread => { thread with role := .looping h l })

/-- Any number of steps. -/
abbrev Run (homes : Homes) : World → World → Prop :=
  Relation.ReflTransGen (Step homes)

end Keepalive

end ScriptHost
