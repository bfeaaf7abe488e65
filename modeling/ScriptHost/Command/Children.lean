import ScriptHost.Command.Basic
import ScriptHost.Eval.Outermost
import ScriptHost.Glob

/-!
# Commands on interpreters
-/

namespace ScriptHost.Command

/-- What an interpreter knows about itself. -/
def info (i : InterpId) : List String → Exec String
  | ["exists", name] => do return truthText (← lookupVar i name).isSome
  | "exists" :: [] => Exec.wrongArgs "info exists varName"
  | ["commands"] => names "*"
  | ["commands", pattern] => names pattern
  | ["level"] => do return toString (← getInterp i).level
  | ["level", _] => do return toString (← getInterp i).level
  | [sub] => unknown sub
  | [sub, _] => unknown sub
  | _ => Exec.wrongArgs "info subcommand ?arg?"
where
  /-- The commands whose names fit a pattern. -/
  names (pattern : String) : Exec String := do
    return WordList.merge ((← getInterp i).commandNames.filter (Glob.isMatch pattern))
  /-- The complaint about a subcommand. -/
  unknown (sub : String) : Exec String :=
    Exec.fail s!"unknown or ambiguous subcommand \"{sub}\": must be commands, exists, or level"

/-- The child with a name. -/
def childNamed (i : InterpId) (name : String) : Exec InterpId := do
  match (← getInterp i).children.get? name with
  | some child => return child
  | none => Exec.fail s!"could not find interpreter \"{name}\""

/-- Make a child. -/
def makeChild (i : InterpId) (name : String) (safe : Bool) : Exec InterpId := do
  let (result, w) := (← get).createChild i name safe
  MonadState.set w
  Exec.ofExcept result

/-- The name of a new child among the arguments: the last one that is no option. -/
def nameArg (args : List String) : Option String :=
  (args.filter fun arg => arg ≠ "-safe" ∧ arg ≠ "--").getLast?

/-- Make a child with a given or a generated name. -/
def createNamed (i : InterpId) (args : List String) : Exec String := do
  let name ←
    match nameArg args with
    | some name => pure name
    | none => do
      let (name, r) := (← getInterp i).generateName
      updateInterp i fun _ => r
      pure name
  let _ ← makeChild i name (args.contains "-safe")
  return name

/-- Delete children up to the first that is not there. -/
def deleteNamed (i : InterpId) : List String → Exec String
  | [] => pure ""
  | name :: rest => do
    let child ← childNamed i name
    modify fun w => w.delete child
    deleteNamed i rest

/-- Create, delete, run and list children. -/
def interp (e : Engine) (i : InterpId) : List String → Exec String
  | [] => Exec.wrongArgs "interp cmd ?arg ...?"
  | "create" :: args => createNamed i args
  | "delete" :: names => deleteNamed i names
  | "eval" :: args =>
    match args with
    | name :: script :: rest => do
      let child ← childNamed i name
      match ← (Exec.ofAct (evalFrom e child (joinWords (script :: rest)))).observe with
      | .ok value => return value
      | .error end_ => Exec.fail end_.value
    | _ => Exec.wrongArgs "interp eval path arg ?arg ...?"
  | "exists" :: args =>
    match args with
    | [name] => do return truthText ((← getInterp i).children.contains name)
    | _ => Exec.wrongArgs "interp exists path"
  | "issafe" :: args =>
    match args with
    | [] => do return truthText (← getInterp i).safe
    | name :: _ => do return truthText (← getInterp (← childNamed i name)).safe
  | "children" :: _ => do return WordList.merge (← getInterp i).childNames
  | option :: _ =>
    Exec.fail
      (s!"bad option \"{option}\": must be " ++
        "children, create, delete, eval, exists, or issafe")

end ScriptHost.Command
