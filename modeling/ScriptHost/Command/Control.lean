import ScriptHost.Command.Basic

/-!
# Commands that decide what runs
-/

namespace ScriptHost.Command

/-- What follows the condition of a clause without the noise word. -/
def dropThen : List String → List String
  | "then" :: rest => rest
  | rest => rest

theorem length_of_dropThen {args rest : List String} {body : String}
    (h : dropThen args = body :: rest) : rest.length < args.length := by
  unfold dropThen at h
  split at h
  · cases h
    simp only [List.length_cons]
    omega
  · subst h
    simp

/-- Run the script of the first clause whose condition holds, or the last script if it has no
condition. -/
def ifElse (e : Engine) (i : InterpId) : List String → Exec String
  | [] => Exec.fail "wrong # args: no expression after \"if\" argument"
  | condition :: rest =>
    match _h : dropThen rest with
    | [] => Exec.fail s!"wrong # args: no script following \"{condition}\" argument"
    | body :: rest => do
      if ← evalCondition e i condition then e.script i body
      else
        match _hrest : rest with
        | [] => pure ""
        | "elseif" :: rest => ifElse e i rest
        | ["else"] => Exec.fail "wrong # args: no script following \"else\" argument"
        | "else" :: body :: _ => e.script i body
        | body :: _ => e.script i body
termination_by args => args.length
decreasing_by
  subst _hrest
  have := length_of_dropThen _h
  simp only [List.length_cons] at this ⊢
  omega

/-- Run the body of a loop and answer whether the loop goes on. -/
def runBody (e : Engine) (i : InterpId) (body : String) : Exec Bool := do
  match ← (e.script i body).observe with
  | .ok _ => return true
  | .error end_ =>
    match end_.code with
    | .breaking => return false
    | .continuing => return true
    | _ => throw end_

/-- Repeat a body as long as a condition holds, with a step after each round. -/
def rounds (e : Engine) (i : InterpId) (condition body : String) (step : Option String) :
    Nat → Exec String
  | 0 => Act.halt .stalled
  | count + 1 => do
    if ← evalCondition e i condition then
      if ← runBody e i body then
        match step with
        | some script =>
          let _ ← e.script i script
          rounds e i condition body step count
        | none => rounds e i condition body step count
      else return ""
    else return ""

/-- Repeat a body as long as a condition holds. -/
def whileLoop (e : Engine) (i : InterpId) : List String → Exec String
  | [condition, body] => rounds e i condition body none e.fuel
  | _ => Exec.wrongArgs "while test command"

/-- Repeat a body with a start before it and a step after each round. -/
def forLoop (e : Engine) (i : InterpId) : List String → Exec String
  | [start, condition, step, body] => do
    let _ ← e.script i start
    rounds e i condition body (some step) e.fuel
  | _ => Exec.wrongArgs "for start test next command"

/-- Set variables to values; missing values are empty. -/
def assign (i : InterpId) : List String → List String → Exec Unit
  | [], _ => pure ()
  | name :: names, values => do
    let _ ← writeVar i name (values.headD "")
    assign i names values.tail

/-- Run a body for every group of values, as many in a group as there are variables. -/
def forEachGroup (e : Engine) (i : InterpId) (first : String) (others : List String)
    (body : String) : List String → Exec String
  | [] => pure ""
  | value :: values => do
    assign i (first :: others) (value :: values.take others.length)
    if ← runBody e i body then
      forEachGroup e i first others body (values.drop others.length)
    else return ""
termination_by values => values.length
decreasing_by
  simp only [List.length_drop, List.length_cons]
  omega

/-- Run a body for every group of words of a list. -/
def forEach (e : Engine) (i : InterpId) : List String → Exec String
  | [names, values, body] => do
    match ← listArg names with
    | [] => Exec.fail "foreach varlist is empty"
    | first :: others => forEachGroup e i first others body (← listArg values)
  | _ => Exec.wrongArgs "foreach varList list command"

/-- End the round of a loop with a code. -/
def leave (code : Code) : List String → Exec String
  | [] => throw ⟨code, ""⟩
  | _ => Exec.wrongArgs code.name

/-- End with a code and at most one value. -/
def endWith (code : Code) : List String → Exec String
  | [] => throw ⟨code, ""⟩
  | [value] => throw ⟨code, value⟩
  | _ => Exec.wrongArgs "return ?-code code? ?result?"

/-- Return from a procedure, or end with a code. -/
def returnValue : List String → Exec String
  | ["-code"] => Exec.wrongArgs "return ?-code code? ?result?"
  | "-code" :: name :: rest =>
    match Code.ofText? name with
    | some .ok => endWith .returning rest
    | some code => endWith code rest
    | none =>
      Exec.fail
        (s!"bad completion code \"{name}\": must be " ++
          "ok, error, return, break, continue, or an integer")
  | args => endWith .returning args

/-- Fail with a message. -/
def raise : List String → Exec String
  | [message] => Exec.fail message
  | _ => Exec.wrongArgs "error message"

/-- Run a script, keep what it completed with and answer the number of its code. -/
def catchCode (e : Engine) (i : InterpId) : List String → Exec String
  | [script] => do
    let completion : Completion ← (e.script i script).observe
    return toString completion.code.number
  | [script, name] => do
    let completion : Completion ← (e.script i script).observe
    let _ ← writeVar i name completion.value
    return toString completion.code.number
  | _ => Exec.wrongArgs "catch script ?resultVarName?"

end ScriptHost.Command
