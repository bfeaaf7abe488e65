import ScriptHost.Act

/-!
# Variables as scripts see them

Reading and writing variables where an interpreter stands. An interpreter whose frames are gone,
because it was deleted while a procedure was running, has no variables to look at: that is a panic.
-/

namespace ScriptHost

/-- The interpreter. -/
def getInterp (i : InterpId) : Act Interpreter := do
  return (← get).interp i

/-- Change the interpreter. -/
def updateInterp (i : InterpId) (f : Interpreter → Interpreter) : Act Unit :=
  modify fun w => w.modifyInterp i f

/-- The panic over a missing frame. -/
def noFrame {α : Type} (name : String) : Act α :=
  let index := if Interpreter.hasGlobalPrefix name then "0" else "18446744073709551615"
  Act.panic s!"index out of bounds: the len is 0 but the index is {index}"

/-- The interpreter, whose frames must not be gone. -/
def getFramed (i : InterpId) (name : String) : Act Interpreter := do
  let r ← getInterp i
  if r.frames.isEmpty then noFrame name else return r

/-- Fail unless the interpreter is live. -/
def checkLive (i : InterpId) : Exec Unit := do
  if (← getInterp i).deleted then Exec.fail "attempt to call eval in deleted interpreter"

/-- The value of a variable, if it exists. -/
def lookupVar (i : InterpId) (name : String) : Exec (Option String) := do
  return (← getFramed i name).var? name

/-- The value of a variable. -/
def readVar (i : InterpId) (name : String) : Exec String := do
  match ← lookupVar i name with
  | some value => return value
  | none => Exec.fail s!"can't read \"{name}\": no such variable"

/-- Set a variable and answer its value. -/
def writeVar (i : InterpId) (name value : String) : Exec String := do
  let _ ← getFramed i name
  updateInterp i fun r => r.setVar name value
  return value

/-- Remove a variable. -/
def removeVar (i : InterpId) (name : String) : Exec Unit := do
  match ← lookupVar i name with
  | some _ => updateInterp i fun r => r.unsetVar name
  | none => Exec.fail s!"can't unset \"{name}\": no such variable"

/-- The value of a global variable, if it exists. -/
def getGlobal (i : InterpId) (name : String) : Act (Option String) := do
  return (← getFramed i "::").global? name

/-- Set a global variable and answer its value. -/
def setGlobal (i : InterpId) (name value : String) : Exec String := do
  checkLive i
  let _ ← getFramed i "::"
  updateInterp i fun r => r.setGlobal name value
  return value

/-- Remove a global variable and answer whether it existed. -/
def unsetGlobal (i : InterpId) (name : String) : Act Bool := do
  let existed := ((← getFramed i "::").global? name).isSome
  updateInterp i fun r => r.unsetGlobal name
  return existed

end ScriptHost
