/-!
# Completions

How a command or a script ends: with a value, or abruptly with a completion code and a value that
travel up the evaluation until something takes them.
-/

namespace ScriptHost

/-- Completion codes, numbered as `catch` reports them. -/
inductive Code
  | ok
  | error
  | returning
  | breaking
  | continuing
deriving DecidableEq, Repr

/-- The number of a code. -/
def Code.number : Code → Nat
  | .ok => 0
  | .error => 1
  | .returning => 2
  | .breaking => 3
  | .continuing => 4

/-- The name of a code. -/
def Code.name : Code → String
  | .ok => "ok"
  | .error => "error"
  | .returning => "return"
  | .breaking => "break"
  | .continuing => "continue"

/-- All codes, in the order of their numbers. -/
def Code.all : List Code := [.ok, .error, .returning, .breaking, .continuing]

/-- The code that a name or a number written in decimal denotes. -/
def Code.ofText? (text : String) : Option Code :=
  Code.all.find? fun code => text = code.name || text = toString code.number

/-- An end that is not normal. -/
structure Abrupt where
  code : Code
  value : String
deriving DecidableEq, Repr

/-- An error with its message. -/
def Abrupt.error (message : String) : Abrupt :=
  ⟨.error, message⟩

/-- The complaint about the number of arguments of a command. -/
def Abrupt.wrongArgs (usage : String) : Abrupt :=
  .error s!"wrong # args: should be \"{usage}\""

/-- The complaint about a code that only a loop or a procedure takes. -/
def Abrupt.outsideLoop (code : Code) : Abrupt :=
  .error s!"invoked \"{code.name}\" outside of a loop"

/-- How a command or a script ended. -/
abbrev Completion := Except Abrupt String

/-- An error as a completion. -/
def Completion.fail (message : String) : Completion :=
  .error (.error message)

/-- The code of a completion. -/
def Completion.code : Completion → Code
  | .ok _ => .ok
  | .error e => e.code

/-- The value of a completion, whatever its code. -/
def Completion.value : Completion → String
  | .ok value => value
  | .error e => e.value

/-- The completion of an outermost evaluation: a return is a normal end, and a code for a loop is
an error. -/
def Completion.outermost : Completion → Completion
  | .ok value => .ok value
  | .error e =>
    match e.code with
    | .returning | .ok => .ok e.value
    | .breaking | .continuing => .error (.outsideLoop e.code)
    | .error => .error e

end ScriptHost
