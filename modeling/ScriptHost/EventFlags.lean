/-!
# Event flags

Which kinds of work a call may serve, and whether it may wait for some.
-/

namespace ScriptHost

/-- A set of kinds of work with the wish not to wait, as bits. -/
structure EventFlags where
  bits : Nat
deriving DecidableEq, Repr

namespace EventFlags

/-- Return at once if there is nothing to serve. -/
def dontWait : EventFlags := ⟨2⟩

/-- Window events; events posted by threads count as such. -/
def window : EventFlags := ⟨4⟩

/-- File events; events posted by threads count as such. -/
def file : EventFlags := ⟨8⟩

/-- Timers. -/
def timer : EventFlags := ⟨16⟩

/-- Idle handlers. -/
def idle : EventFlags := ⟨32⟩

/-- Both sets of flags. -/
def union (a b : EventFlags) : EventFlags := ⟨a.bits ||| b.bits⟩

/-- Window and file events, under which posted events are served. -/
def posted : EventFlags := window.union file

/-- All kinds of work. -/
def all : EventFlags := (posted.union timer).union idle

/-- The flags that have a meaning. -/
def known : EventFlags := dontWait.union all

/-- The flags that are served when none are named. -/
def default : EventFlags := all

/-- The flags with the known ones of the given bits. -/
def ofBits (bits : Nat) : EventFlags := ⟨bits &&& known.bits⟩

/-- Whether all flags of the second set are in the first. -/
def contains (a b : EventFlags) : Bool := a.bits &&& b.bits == b.bits

/-- Whether the sets have a flag in common. -/
def intersects (a b : EventFlags) : Bool := a.bits &&& b.bits != 0

/-- Flags that name no kind of work name all of them. -/
def normalize (flags : EventFlags) : EventFlags :=
  if flags.intersects all then flags else flags.union all

end EventFlags

end ScriptHost
