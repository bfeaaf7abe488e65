import ScriptHost.Expr.Value
import ScriptHost.Script

/-!
# Expressions

The trees that `expr` and the conditions of `if`, `while` and `for` are read into, and the meaning
of their operators. Integer arithmetic wraps at 64 bits and division rounds down.
-/

namespace ScriptHost

/-- Operators with one operand. -/
inductive Expr.UnaryOp
  | negate
  | plus
  | not
deriving DecidableEq, Repr

/-- Operators that need both operands. -/
inductive Expr.BinaryOp
  | mul
  | div
  | rem
  | add
  | sub
  | lt
  | gt
  | le
  | ge
  | eq
  | ne
  | textEq
  | textNe
deriving DecidableEq, Repr

/-- An expression. -/
inductive Expr
  | literal (value : Expr.Value)
  | variable (name : String)
  | script (source : String)
  | quoted (parts : Script.Word)
  | unary (op : Expr.UnaryOp) (operand : Expr)
  | binary (op : Expr.BinaryOp) (left right : Expr)
  | both (left right : Expr)
  | either (left right : Expr)
  | choice (condition yes no : Expr)

namespace Expr

/-- How an operator is written. -/
def BinaryOp.symbol : BinaryOp → String
  | .mul => "*"
  | .div => "/"
  | .rem => "%"
  | .add => "+"
  | .sub => "-"
  | .lt => "<"
  | .gt => ">"
  | .le => "<="
  | .ge => ">="
  | .eq => "=="
  | .ne => "!="
  | .textEq => "eq"
  | .textNe => "ne"

/-- How an operator is written. -/
def UnaryOp.symbol : UnaryOp → String
  | .negate => "-"
  | .plus => "+"
  | .not => "!"

/-- The Euclidean quotient as a word; the quotient of the least word by minus one wraps. -/
def euclidDiv (a b : Int64) : Int64 :=
  Int64.ofInt (a.toInt / b.toInt)

/-- The Euclidean remainder, which is not negative. -/
def euclidMod (a b : Int64) : Int64 :=
  Int64.ofInt (a.toInt % b.toInt)

/-- Whether the Euclidean quotient is rounded up: the divisor is negative and does not go into the
dividend. -/
def roundsUp (a b : Int64) : Bool :=
  b < 0 && euclidMod a b != 0

/-- The quotient rounded down. -/
def floorDiv (a b : Int64) : Int64 :=
  if roundsUp a b then euclidDiv a b - 1 else euclidDiv a b

/-- The remainder with the sign of the divisor. -/
def floorMod (a b : Int64) : Int64 :=
  if roundsUp a b then euclidMod a b + b else euclidMod a b

/-- The order of two doubles; a double that is no number equals every other. -/
def compareReal (x y : Float) : Ordering :=
  if x < y then .lt else if x > y then .gt else .eq

/-- The order of two values: exact between integers, as doubles between other numbers, and by
their texts if one of them is no number. -/
def compareValues (l r : Value) : Ordering :=
  match l, r with
  | .int a, .int b => compare a b
  | l, r =>
    match l.toFloat?, r.toFloat? with
    | some x, some y => compareReal x y
    | _, _ => compare l.toText r.toText

/-- An operator on integers. -/
def intArith (op : BinaryOp) (a b : Int64) : Except Fault Value :=
  match op with
  | .add => .ok (.int (a + b))
  | .sub => .ok (.int (a - b))
  | .mul => .ok (.int (a * b))
  | .div => if b = 0 then .error .divideByZero else .ok (.int (floorDiv a b))
  | .rem => if b = 0 then .error .divideByZero else .ok (.int (floorMod a b))
  | op => .error (.nonNumeric op.symbol)

/-- An operator on doubles. -/
def realArith (op : BinaryOp) (x y : Float) : Except Fault Value :=
  match op with
  | .add => .ok (.real (x + y))
  | .sub => .ok (.real (x - y))
  | .mul => .ok (.real (x * y))
  | .div => if y == 0 then .error .divideByZero else .ok (.real (x / y))
  | .rem => .error .realRemainder
  | op => .error (.nonNumeric op.symbol)

/-- An arithmetic operator on two values, which must be numbers. -/
def arith (op : BinaryOp) (l r : Value) : Except Fault Value :=
  match l, r with
  | .int a, .int b => intArith op a b
  | l, r =>
    match l.toFloat?, r.toFloat? with
    | some x, some y => realArith op x y
    | _, _ => .error (.nonNumeric op.symbol)

/-- The meaning of an operator with two operands. -/
def applyBinary (op : BinaryOp) (l r : Value) : Except Fault Value :=
  match op with
  | .textEq => .ok (.ofBool (l.toText == r.toText))
  | .textNe => .ok (.ofBool (l.toText != r.toText))
  | .eq => .ok (.ofBool (compareValues l r == .eq))
  | .ne => .ok (.ofBool (compareValues l r != .eq))
  | .lt => .ok (.ofBool (compareValues l r == .lt))
  | .gt => .ok (.ofBool (compareValues l r == .gt))
  | .le => .ok (.ofBool (compareValues l r != .gt))
  | .ge => .ok (.ofBool (compareValues l r != .lt))
  | op => arith op l r

/-- The meaning of an operator with one operand. -/
def applyUnary (op : UnaryOp) (v : Value) : Except Fault Value :=
  match op, v with
  | .not, v => v.truth.map fun b => .ofBool (!b)
  | .negate, .int n => .ok (.int (-n))
  | .negate, .real x => .ok (.real (-x))
  | .plus, .int n => .ok (.int n)
  | .plus, .real x => .ok (.real x)
  | op, .text _ => .error (.nonNumeric op.symbol)

end Expr

end ScriptHost
