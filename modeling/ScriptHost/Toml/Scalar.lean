import ScriptHost.Number.Integer
import ScriptHost.Toml

/-!
# Bare values of a document

Truth values, numbers and moments stand in a document without quotes. Underscores may separate
the digits of a number, and a number has no zeros in front.
-/

namespace ScriptHost.Toml

/-- The digits of a number whose underscores each stand between two digits. -/
def separated? (isDigit : Char → Bool) : List Char → Option (List Char)
  | [] => none
  | [c] => if isDigit c then some [c] else none
  | c :: '_' :: rest => if isDigit c then (separated? isDigit rest).map (c :: ·) else none
  | c :: rest => if isDigit c then (separated? isDigit rest).map (c :: ·) else none

/-- The digits of a decimal number without zeros in front. -/
def decimalDigits? (cs : List Char) : Option (List Char) :=
  match separated? Char.isDigit cs with
  | some ['0'] => some ['0']
  | some ('0' :: _) => none
  | digits => digits

/-- The number that digits of a base spell, with underscores between them. -/
def based? (base : Nat) (cs : List Char) : Option Int :=
  ((separated? (fun c => (Number.digitIn base c).isSome) cs).bind (Number.digits? base)).map
    Int.ofNat

/-- The integer that a bare value denotes. -/
def integer? (cs : List Char) : Option Int :=
  match cs with
  | '0' :: 'x' :: rest => based? 16 rest
  | '0' :: 'o' :: rest => based? 8 rest
  | '0' :: 'b' :: rest => based? 2 rest
  | cs =>
    let (negative, digits) := Number.splitSign cs
    ((decimalDigits? digits).bind (Number.digits? 10)).map (Number.withSign negative)

/-- Whether characters are an exponent. -/
def isExponent (cs : List Char) : Bool :=
  (separated? Char.isDigit (Number.splitSign cs).2).isSome

/-- Whether a bare value is a number with a fraction, an exponent or no bound. -/
def isReal (cs : List Char) : Bool :=
  let unsigned := (Number.splitSign cs).2
  if unsigned = "inf".toList ∨ unsigned = "nan".toList then true
  else
    let isMark (c : Char) : Bool := c = 'e' || c = 'E'
    let (whole, rest) := unsigned.span fun c => c ≠ '.' && !isMark c
    (decimalDigits? whole).isSome &&
      match rest with
      | '.' :: rest =>
        let (fraction, rest) := rest.span fun c => !isMark c
        (separated? Char.isDigit fraction).isSome && (rest.isEmpty || isExponent rest.tail)
      | _ :: rest => isExponent rest
      | [] => false

/-! ### Moments -/

/-- The number that two digits in front spell, and what follows. -/
def twoDigits? : List Char → Option (Nat × List Char)
  | a :: b :: rest => (Number.digits? 10 [a, b]).map fun n => (n, rest)
  | _ => none

/-- The number of days of a month. -/
def daysIn (year month : Nat) : Nat :=
  if month = 2 then
    if year % 4 = 0 ∧ (year % 100 ≠ 0 ∨ year % 400 = 0) then 29 else 28
  else if [4, 6, 9, 11].contains month then 30 else 31

/-- What follows a date in front. -/
def date? (cs : List Char) : Option (List Char) := do
  let year ← Number.digits? 10 (cs.take 4)
  let '-' :: rest := cs.drop 4 | none
  let (month, rest) ← twoDigits? rest
  let '-' :: rest := rest | none
  let (day, rest) ← twoDigits? rest
  if (cs.take 4).length = 4 ∧ 1 ≤ month ∧ month ≤ 12 ∧ 1 ≤ day ∧ day ≤ daysIn year month then
    some rest
  else none

/-- What follows the hours and minutes in front. -/
def clock? (cs : List Char) : Option (List Char) := do
  let (hour, rest) ← twoDigits? cs
  let ':' :: rest := rest | none
  let (minute, rest) ← twoDigits? rest
  if hour ≤ 23 ∧ minute ≤ 59 then some rest else none

/-- What follows a time of day in front. -/
def time? (cs : List Char) : Option (List Char) := do
  let rest ← clock? cs
  let ':' :: rest := rest | none
  let (second, rest) ← twoDigits? rest
  if second ≤ 60 then
    match rest with
    | '.' :: rest =>
      let fraction := rest.takeWhile Char.isDigit
      if fraction.isEmpty then none else some (rest.drop fraction.length)
    | rest => some rest
  else none

/-- Whether characters are an offset from universal time, or nothing. -/
def isOffset : List Char → Bool
  | [] => true
  | ['Z'] => true
  | ['z'] => true
  | '+' :: rest => clock? rest == some []
  | '-' :: rest => clock? rest == some []
  | _ => false

/-- Whether a bare value is a date, a time or both. -/
def isMoment (cs : List Char) : Bool :=
  match date? cs with
  | some [] => true
  | some (c :: rest) => (c = 'T' || c = 't' || c = ' ') && (time? rest).any isOffset
  | none => time? cs == some []

/-- The value that a bare text denotes. -/
def bare? (cs : List Char) : Option Value :=
  if cs = "true".toList then some (.truth true)
  else if cs = "false".toList then some (.truth false)
  else
    match integer? cs with
    | some n => some (.integer n)
    | none =>
      if isReal cs then some .real else if isMoment cs then some .moment else none

end ScriptHost.Toml
