import ScriptHost.Closure
import ScriptHost.Table

/-!
# Registered closures

Each handle keeps the closures that scripts may call, under ids that are never used again.
-/

namespace ScriptHost

/-- The closures of one handle by their numbers, in order of registration. -/
structure Callbacks where
  entries : Table Nat Closure := .empty
  /-- The number of the next closure. -/
  next : Nat := 1

namespace Callbacks

/-- The id of the closure with a number. -/
def idOf (n : Nat) : String :=
  s!"cb{n}"

/-- The command that calls a closure. -/
def command (id : String) : String :=
  s!"host_callback {id}"

/-- The number that an id stands for among the registered closures. -/
def number? (c : Callbacks) (id : String) : Option Nat :=
  c.entries.keys.find? fun n => idOf n = id

/-- Store a closure and answer its id. -/
def register (c : Callbacks) (closure : Closure) : String × Callbacks :=
  (idOf c.next, { entries := c.entries.insert c.next closure, next := c.next + 1 })

/-- Remove a closure; an unknown id is ignored. -/
def unregister (c : Callbacks) (id : String) : Callbacks :=
  match c.number? id with
  | none => c
  | some n => { c with entries := c.entries.erase n }

/-- The closure of an id. -/
def find? (c : Callbacks) (id : String) : Option Closure :=
  (c.number? id).bind c.entries.get?

/-- Remove all closures. -/
def clear (c : Callbacks) : Callbacks :=
  { c with entries := .empty }

/-- The ids in order of registration. -/
def ids (c : Callbacks) : List String :=
  c.entries.keys.map idOf

/-- Whether an id is registered. -/
def contains (c : Callbacks) (id : String) : Bool :=
  (c.number? id).isSome

/-- The number of registered closures. -/
def size (c : Callbacks) : Nat :=
  c.entries.size

end Callbacks

end ScriptHost
