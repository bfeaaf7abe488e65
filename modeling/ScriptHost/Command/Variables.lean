import ScriptHost.Command.Basic

/-!
# Commands on variables
-/

namespace ScriptHost.Command

/-- Read or write a variable. -/
def set (i : InterpId) : List String → Exec String
  | [name] => readVar i name
  | [name, value] => writeVar i name value
  | _ => Exec.wrongArgs "set varName ?newValue?"

/-- Remove variables; unless `complain` holds, missing ones are passed over. -/
def unsetAll (i : InterpId) (complain : Bool) : List String → Exec String
  | [] => pure ""
  | name :: rest => do
    if complain || (← lookupVar i name).isSome then removeVar i name
    unsetAll i complain rest

/-- Remove variables. -/
def unset (i : InterpId) : List String → Exec String
  | "-nocomplain" :: names => unsetAll i false names
  | names => unsetAll i true names

/-- Add to a variable, which counts as zero if it is missing. -/
def incrBy (i : InterpId) (name : String) (by_ : Int64) : Exec String := do
  let current ←
    match ← lookupVar i name with
    | some text => intArg text
    | none => pure 0
  writeVar i name (Number.integerText (current + by_))

/-- Add to a variable, one if nothing is said. -/
def incr (i : InterpId) : List String → Exec String
  | [name] => incrBy i name 1
  | [name, text] => do incrBy i name (← intArg text)
  | _ => Exec.wrongArgs "incr varName ?increment?"

/-- Append texts to a variable. -/
def append (i : InterpId) : List String → Exec String
  | [] => Exec.wrongArgs "append varName ?value ...?"
  | name :: pieces => do
    let value := (← lookupVar i name).getD ""
    writeVar i name (String.join (value :: pieces))

/-- Append words to a list in a variable. -/
def lappend (i : InterpId) : List String → Exec String
  | [] => Exec.wrongArgs "lappend varName ?value ...?"
  | name :: words => do
    let present ←
      match ← lookupVar i name with
      | some text => listArg text
      | none => pure []
    writeVar i name (WordList.merge (present ++ words))

/-- Make names stand for global variables. -/
def global (i : InterpId) (names : List String) : Exec String := do
  let _ ← getFramed i ""
  updateInterp i fun r => names.foldl (fun r name => r.linkGlobal name) r
  return ""

end ScriptHost.Command
