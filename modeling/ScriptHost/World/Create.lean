import ScriptHost.World.Delete

/-!
# Making interpreters and handles

A handle is made for an interpreter that the host creates and for every child of such an
interpreter. A child that a script made has no other holder, so its handle is pinned until the
interpreter goes away.
-/

namespace ScriptHost.World

/-- A new interpreter. -/
def newInterp (w : World) (name : String) (safe : Bool) (parent : Option InterpId) :
    InterpId × World :=
  (w.nextInterp,
    { w with
      interps := w.interps.insert w.nextInterp (.fresh name safe parent)
      nextInterp := w.nextInterp + 1 })

/-- Define a command unless the interpreter is deleted. -/
def defineCommand (w : World) (i : InterpId) (name : String) (command : Command) : World :=
  w.modifyInterp i fun r =>
    if r.deleted then r else { r with commands := r.commands.insert name command }

/-- Give an interpreter of the thread that is running a new handle, which is not listed yet. -/
def addHandle (w : World) (i : InterpId) (config : HandleConfig) : HandleId × World :=
  let h := w.hub.nextHandle
  let r := w.interp i
  let handle : Handle :=
    { owner := w.current, name := r.name, safe := r.safe, timerMs := config.timerMs, config,
      interp := some i }
  (h,
    { w with
      handles := w.handles.insert h handle
      hub := { w.hub with nextHandle := h + 1 } })

/-- List a handle in the registry. -/
def track (w : World) (h : HandleId) : World :=
  { w with hub := { w.hub with registry := w.hub.registry ++ [h] } }

/-- Make a handle for an interpreter of the thread that is running. -/
def adopt (w : World) (i : InterpId) (config : HandleConfig) : HandleId × World :=
  let (h, w) := w.addHandle i config
  let w := w.defineCommand i "host_callback" (.callback h)
  let w := w.defineCommand i "host_eval" (.evaluator h)
  let w := w.modifyInterp i fun r => { r with childHooks := r.childHooks ++ [.adopt config] }
  (h, (w.callWhenDeleted i (.untrack h)).track h)

/-- Run a hook of the parent of a new child. -/
def runChildHook (child : InterpId) (w : World) : ChildHook → World
  | .log label =>
    let r := w.interp child
    w.addLog s!"{label} {r.name} {r.safe}"
  | .adopt config =>
    let (h, w) := w.adopt child { config with safe := (w.interp child).safe }
    w.modifyHandle h fun handle => { handle with pinned := true }

/-- Make a child of an interpreter that is not deleted. A safe interpreter makes only safe
children. -/
def createChild (w : World) (parent : InterpId) (name : String) (safe : Bool) :
    Except Abrupt InterpId × World :=
  let p := w.interp parent
  if p.deleted then (.error (.error "attempt to call eval in deleted interpreter"), w)
  else if name.isEmpty then (.error (.error "interpreter name must not be empty"), w)
  else if p.children.contains name then
    (.error (.error s!"interpreter named \"{name}\" already exists, cannot create"), w)
  else
    let (child, w) := w.newInterp name (safe || p.safe) (some parent)
    let w := w.modifyInterp parent fun p => { p with children := p.children.insert name child }
    (.ok child, p.childHooks.foldl (runChildHook child) w)

end ScriptHost.World
