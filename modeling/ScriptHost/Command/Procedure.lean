import ScriptHost.Command.Basic

/-!
# Procedures

A parameter takes the argument at its position or else its default. A last parameter named `args`
takes the list of all arguments that are left.
-/

namespace ScriptHost

namespace Procedure

/-- How a parameter looks in the complaint about a wrong number of arguments. -/
def Param.usage (p : Param) : String :=
  match p.default with
  | some _ => s!"?{p.name}?"
  | none => if p.name = "args" then "?arg ...?" else p.name

/-- The variables of a call, or nothing if the number of arguments does not fit. -/
def bind? : List Param → List String → Option (List (String × String))
  | [], [] => some []
  | [], _ :: _ => none
  | p :: ps, args =>
    if p.name = "args" ∧ ps = [] then some [(p.name, WordList.merge args)]
    else
      match args, p.default with
      | arg :: args, _ => (bind? ps args).map ((p.name, arg) :: ·)
      | [], some value => (bind? ps []).map ((p.name, value) :: ·)
      | [], none => none

/-- The completion of a call whose body completed in some way. -/
def close : Completion → Completion := Completion.outermost

/-- Call a procedure. -/
def call (e : Engine) (i : InterpId) (p : Procedure) (args : List String) : Exec String :=
  match bind? p.params args with
  | none => Exec.wrongArgs p.usage
  | some vars =>
    Exec.ofAct do
      updateInterp i fun r => r.enterCall (.ofList vars)
      let completion ←
        (e.call (.script i p.body)).ensuring fun w => w.modifyInterp i Interpreter.leaveCall
      return close completion

end Procedure

namespace Command

/-- The parameter that a list of a name and perhaps a default declares. -/
def paramOf (procedure : String) (declaration : String) : Exec Param := do
  match ← listArg declaration with
  | [] => Exec.fail s!"argument with no name in procedure \"{procedure}\""
  | name :: rest => return ⟨name, rest.head?⟩

/-- The parameters that a list declares. -/
def paramsOf (procedure : String) : List String → Exec (List Param)
  | [] => pure []
  | declaration :: rest => do
    let p ← paramOf procedure declaration
    let ps ← paramsOf procedure rest
    return p :: ps

/-- Define a procedure. -/
def proc (i : InterpId) : List String → Exec String
  | [name, formals, body] => do
    let params ← paramsOf name (← listArg formals)
    let usage := joinWords (name :: params.map Procedure.Param.usage)
    modify fun w => w.defineCommand i name (.procedure ⟨params, body, usage⟩)
    return ""
  | _ => Exec.wrongArgs "proc name args body"

end Command

end ScriptHost
