import ScriptHost.Eval.Variable
import ScriptHost.Expr.Parser

/-!
# Substitution and expressions

Putting words together and computing expressions, both of which may run scripts.
-/

namespace ScriptHost

/-- Evaluate a script and report its completion as it is. -/
def Engine.script (e : Engine) (i : InterpId) (source : String) : Exec String :=
  Exec.ofAct (e.call (.script i source))

/-- The text of the parts of a word, behind the text of those before them. -/
def substituteFrom (e : Engine) (i : InterpId) (text : String) : Script.Word → Exec String
  | [] => pure text
  | .text value :: rest => substituteFrom e i (text ++ value) rest
  | .variable name :: rest => do
    let value ← readVar i name
    substituteFrom e i (text ++ value) rest
  | .script source :: rest => do
    let value ← e.script i source
    substituteFrom e i (text ++ value) rest

/-- The text of a word. -/
def substitute (e : Engine) (i : InterpId) (word : Script.Word) : Exec String :=
  substituteFrom e i "" word

/-- The texts of words. -/
def substituteAll (e : Engine) (i : InterpId) : List Script.Word → Exec (List String)
  | [] => pure []
  | word :: rest => do
    let text ← substitute e i word
    let texts ← substituteAll e i rest
    return text :: texts

/-- The result of an operator. -/
def Exec.ofFault {α : Type} (result : Except Expr.Fault α) : Exec α :=
  Exec.ofExcept (result.mapError fun fault => .error fault.message)

/-- The value of an expression. -/
def evalExpr (e : Engine) (i : InterpId) : Expr → Exec Expr.Value
  | .literal value => pure value
  | .variable name => return .ofText (← readVar i name)
  | .script source => return .ofText (← e.script i source)
  | .quoted parts => return .ofText (← substitute e i parts)
  | .unary op operand => do
    let v ← evalExpr e i operand
    Exec.ofFault (Expr.applyUnary op v)
  | .binary op left right => do
    let l ← evalExpr e i left
    let r ← evalExpr e i right
    Exec.ofFault (Expr.applyBinary op l r)
  | .both left right => do
    let l ← evalExpr e i left
    if ← Exec.ofFault l.truth then
      let r ← evalExpr e i right
      return .ofBool (← Exec.ofFault r.truth)
    else
      return .ofBool false
  | .either left right => do
    let l ← evalExpr e i left
    if ← Exec.ofFault l.truth then
      return .ofBool true
    else
      let r ← evalExpr e i right
      return .ofBool (← Exec.ofFault r.truth)
  | .choice condition yes no => do
    let c ← evalExpr e i condition
    if ← Exec.ofFault c.truth then evalExpr e i yes else evalExpr e i no

/-- The expression that a text consists of. -/
def parseExpr (text : String) : Exec Expr :=
  Exec.ofExcept ((Expr.parse text).mapError fun error => .error (error.message text))

/-- The value of an expression as a text. -/
def evalExprText (e : Engine) (i : InterpId) (text : String) : Exec String := do
  let expr ← parseExpr text
  return (← evalExpr e i expr).toText

/-- The truth of a condition. -/
def evalCondition (e : Engine) (i : InterpId) (text : String) : Exec Bool := do
  let expr ← parseExpr text
  let value ← evalExpr e i expr
  Exec.ofFault value.truth

end ScriptHost
