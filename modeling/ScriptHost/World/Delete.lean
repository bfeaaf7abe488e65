import ScriptHost.World

/-!
# Deleting interpreters

An interpreter is deleted once: first its children in the order of their names, then its scheduled
scripts, then its hooks run, and at last its commands and variables go.
-/

namespace ScriptHost.World

/-- Cancel a scheduled script on the thread that is running. -/
def cancelAfter (w : World) : AfterToken → World
  | .timer token => w.setAgenda (w.agenda.cancelTimer token).2
  | .idle token => w.setAgenda (w.agenda.cancelIdle token).2

/-- Forget the handle of an interpreter that goes away. -/
def untrack (w : World) (h : HandleId) : World :=
  let w := (w.modifyHandle h fun handle => { handle with interp := none }).unregister h
  let w :=
    match w.handles.get? h with
    | some handle => if handle.exists then w.markDeleted h else w
    | none => w
  w.modifyHandle h fun handle => { handle with pinned := false }

/-- Run a hook of the interpreter `self`, which is being deleted; `delete` deletes another one. -/
def runDeleteHook (delete : InterpId → World → World) (self : InterpId) :
    DeleteHook → World → World
  | .log label, w =>
    let r := w.interp self
    w.addLog s!"{label} {r.name} {r.deleted} {r.commands.size}"
  | .untrack h, w => w.untrack h
  | .delete i, w => delete i w
  | .watch i hook, w =>
    if (w.interp i).deleted then runDeleteHook delete i hook w
    else w.modifyInterp i fun r => { r with deleteHooks := r.deleteHooks ++ [hook] }

/-- Take an interpreter out of the children of its parent. -/
def detach (w : World) (r : Interpreter) : World :=
  match r.parent with
  | some p => w.modifyInterp p fun parent =>
      { parent with children := parent.children.erase r.name }
  | none => w

/-- Cancel all scheduled scripts of an interpreter. -/
def cancelAfters (w : World) (i : InterpId) : World :=
  (w.interp i).afters.values.foldl cancelAfter
    (w.modifyInterp i fun r => { r with afters := .empty })

/-- Run the hooks of an interpreter that is being deleted; `delete` deletes another one. -/
def runDeleteHooks (delete : InterpId → World → World) (i : InterpId) (w : World) : World :=
  (w.interp i).deleteHooks.foldl (fun w hook => runDeleteHook delete i hook w)
    (w.modifyInterp i fun r => { r with childHooks := [], deleteHooks := [] })

/-- Delete an interpreter and what is below it, at most `fuel` interpreters in all. -/
def deleteTree : Nat → InterpId → World → World
  | 0, _, w => w
  | fuel + 1, i, w =>
    let r := w.interp i
    if r.deleted then w
    else
      let w := w.modifyInterp i Interpreter.condemn
      let w := r.childIds.foldl (fun w child => deleteTree fuel child w) w
      let w := (w.detach r).cancelAfters i
      (runDeleteHooks (deleteTree fuel) i w).modifyInterp i Interpreter.wipe

/-- Delete an interpreter and what is below it; deleting twice does nothing. -/
def delete (w : World) (i : InterpId) : World :=
  deleteTree w.interps.size i w

/-- Run a hook when an interpreter is deleted, or at once if it is. -/
def callWhenDeleted (w : World) (i : InterpId) (hook : DeleteHook) : World :=
  runDeleteHook (fun j w => w.delete j) i (.watch i hook) w

end ScriptHost.World
