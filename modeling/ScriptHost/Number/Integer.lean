/-!
# Integer literals

Integers are words of 64 bits. A literal is an optional sign and decimal digits, or an optional
sign, `0x` or `0X` and a field in base sixteen that may carry a sign of its own. A literal whose
digits do not fit the word is none.
-/

namespace ScriptHost.Number

/-- The value of a digit in bases up to thirty-six. -/
def digitOf (c : Char) : Option Nat :=
  if '0' ≤ c ∧ c ≤ '9' then some (c.toNat - '0'.toNat)
  else if 'a' ≤ c ∧ c ≤ 'z' then some (c.toNat - 'a'.toNat + 10)
  else if 'A' ≤ c ∧ c ≤ 'Z' then some (c.toNat - 'A'.toNat + 10)
  else none

/-- The digit, if the base has it. -/
def digitIn (base : Nat) (c : Char) : Option Nat :=
  (digitOf c).filter (· < base)

/-- The number that digits spell, after those already read. -/
def digitsFrom (base acc : Nat) : List Char → Option Nat
  | [] => some acc
  | c :: rest => (digitIn base c).bind fun d => digitsFrom base (acc * base + d) rest

/-- The number that one or more digits spell. -/
def digits? (base : Nat) (cs : List Char) : Option Nat :=
  if cs.isEmpty then none else digitsFrom base 0 cs

/-- The word with a given value, if there is one. -/
def word? (z : Int) : Option Int64 :=
  if -(Nat.pow 2 63 : Int) ≤ z ∧ z < (Nat.pow 2 63 : Int) then some (Int64.ofInt z) else none

/-- A sign and what follows it: `true` for a minus. -/
def splitSign : List Char → Bool × List Char
  | '-' :: rest => (true, rest)
  | '+' :: rest => (false, rest)
  | cs => (false, cs)

/-- The number with a sign applied to it. -/
def withSign (negative : Bool) (n : Nat) : Int :=
  if negative then -(n : Int) else n

/-- A signed field of digits that fits the word. -/
def signedField? (base : Nat) (cs : List Char) : Option Int64 :=
  let (negative, digits) := splitSign cs
  (digits? base digits).bind fun n => word? (withSign negative n)

/-- What stands behind the sign of a literal. -/
def unsignedLiteral? : List Char → Option Int64
  | '0' :: 'x' :: rest => signedField? 16 rest
  | '0' :: 'X' :: rest => signedField? 16 rest
  | cs => (digits? 10 cs).bind fun n => word? n

/-- The integer that a literal denotes. -/
def integer? (cs : List Char) : Option Int64 :=
  let (negative, rest) := splitSign cs
  (unsignedLiteral? rest).map fun n => if negative then -n else n

/-- The decimal text of an integer. -/
def integerText (n : Int64) : String :=
  toString n.toInt

/-- Why a decimal field is refused. -/
inductive FieldError
  | empty
  | invalidDigit
  | overflow
  | underflow
deriving DecidableEq, Repr

/-- The text of a field error. -/
def FieldError.message : FieldError → String
  | .empty => "cannot parse integer from empty string"
  | .invalidDigit => "invalid digit found in string"
  | .overflow => "number too large to fit in target type"
  | .underflow => "number too small to fit in target type"

/-- Read decimal digits up to a limit; the first character that is no digit or passes the limit
decides the error. -/
def fieldDigits (limit : Nat) (beyond : FieldError) (acc : Nat) : List Char → Except FieldError Nat
  | [] => .ok acc
  | c :: rest =>
    match digitIn 10 c with
    | none => .error .invalidDigit
    | some d =>
      if limit < acc * 10 + d then .error beyond else fieldDigits limit beyond (acc * 10 + d) rest

/-- A decimal field between two bounds. A minus is a sign only where negative values are in
range. -/
def decimalField (low high : Int) : List Char → Except FieldError Int
  | [] => .error .empty
  | '+' :: c :: rest => (fieldDigits high.toNat .overflow 0 (c :: rest)).map Int.ofNat
  | '-' :: c :: rest =>
    if low < 0 then
      (fieldDigits (-low).toNat .underflow 0 (c :: rest)).map fun n => -(n : Int)
    else
      .error .invalidDigit
  | cs => (fieldDigits high.toNat .overflow 0 cs).map Int.ofNat

end ScriptHost.Number
