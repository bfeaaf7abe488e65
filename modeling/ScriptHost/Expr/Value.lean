import ScriptHost.Number.Integer
import ScriptHost.Number.Real
import ScriptHost.Number.Shortest
import ScriptHost.Text.Letter

/-!
# Values of expressions

A value is an integer of 64 bits, a double or a text. Texts that look like numbers become numbers
when an expression takes them up, and every value is written back as a text.
-/

namespace ScriptHost.Expr

open Number Text

/-- The value of an expression. -/
inductive Value
  | int (n : Int64)
  | real (x : Float)
  | text (s : String)

/-- Why operators cannot be applied. -/
inductive Fault
  | divideByZero
  | nonNumeric (operator : String)
  | realRemainder
  | notBoolean (text : String)
deriving DecidableEq, Repr

/-- The message of a fault. -/
def Fault.message : Fault → String
  | .divideByZero => "divide by zero"
  | .nonNumeric operator => s!"can't use non-numeric string as operand of \"{operator}\""
  | .realRemainder => "can't use floating-point value as operand of \"%\""
  | .notBoolean text => s!"expected boolean value but got \"{text}\""

namespace Value

/-- The value that a text stands for: a number if its characters without the white space around
them are one, else the whole text. -/
def ofText (s : String) : Value :=
  let cs := trimBlanks s.toList
  match integer? cs with
  | some n => .int n
  | none =>
    if cs.any Char.isDigit then
      match real? cs with
      | some x => .real x
      | none => .text s
    else .text s

/-- The text of a double: whole numbers below a quadrillion show a decimal place. -/
def realText (x : Float) : String :=
  if x.isFinite && x.floor == x && x.abs < 1e15 then Number.realText x ++ ".0"
  else if x.isInf then (if x > 0 then "Inf" else "-Inf")
  else Number.realText x

/-- The text of a value. -/
def toText : Value → String
  | .int n => integerText n
  | .real x => realText x
  | .text s => s

/-- The value of a truth. -/
def ofBool (b : Bool) : Value :=
  .int (if b then 1 else 0)

/-- The texts that stand for truth values, in any case of their letters. -/
def boolOfText? (s : String) : Option Bool :=
  let small := s.map Char.toLower
  if small = "true" ∨ small = "yes" ∨ small = "on" then some true
  else if small = "false" ∨ small = "no" ∨ small = "off" then some false
  else none

/-- The truth of a value. -/
def truth : Value → Except Fault Bool
  | .int n => .ok (n != 0)
  | .real x => .ok (x != 0)
  | .text s =>
    match boolOfText? s with
    | some b => .ok b
    | none => .error (.notBoolean s)

/-- The double of a number. -/
def toFloat? : Value → Option Float
  | .int n => some n.toFloat
  | .real x => some x
  | .text _ => none

/-- Whether a value is a number. -/
def isNumber : Value → Bool
  | .text _ => false
  | _ => true

end Value

end ScriptHost.Expr
