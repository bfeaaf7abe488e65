import ScriptHost.Number.Integer

/-!
# Decimal texts of floating-point numbers

Reading rounds to the nearest double. A text is a sign, digits with a point anywhere among them and
an exponent; the sign, the point and the exponent may be missing, but not all digits.
-/

namespace ScriptHost.Number

/-- A decimal: its digits read as one number, how many of them stand behind the point, and the
exponent. -/
structure Decimal where
  negative : Bool
  digits : List Char
  places : Nat
  exponent : Int

/-- The exponent part of a decimal text, which must reach to its end. -/
def exponentPart? : List Char → Option Int
  | [] => some 0
  | c :: rest =>
    if c = 'e' ∨ c = 'E' then
      let (negative, digits) := splitSign rest
      (digits? 10 digits).map (withSign negative)
    else
      none

/-- The decimal that a text spells. -/
def decimal? (cs : List Char) : Option Decimal :=
  let (negative, cs) := splitSign cs
  let whole := cs.takeWhile Char.isDigit
  let rest := cs.dropWhile Char.isDigit
  let (fraction, rest) :=
    match rest with
    | '.' :: rest => (rest.takeWhile Char.isDigit, rest.dropWhile Char.isDigit)
    | rest => ([], rest)
  if (whole ++ fraction).isEmpty then none
  else
    (exponentPart? rest).map fun exponent => ⟨negative, whole ++ fraction, fraction.length, exponent⟩

/-- The number `n · 10 ^ e` rounded to a double. Exponents far beyond the range of doubles are not
computed: the answer is infinity or zero there. -/
def scaled (n : Nat) (e : Int) : Float :=
  let size : Int := (toString n).length + e
  if n = 0 ∨ size < -330 then 0
  else if size > 330 then 1 / 0
  else if e < 0 then Float.ofScientific n true e.natAbs
  else Float.ofScientific n false e.natAbs

/-- The double nearest to a decimal. -/
def Decimal.toFloat (d : Decimal) : Float :=
  let magnitude := scaled ((digitsFrom 10 0 d.digits).getD 0) (d.exponent - d.places)
  if d.negative then -magnitude else magnitude

/-- The double that a text denotes. -/
def real? (cs : List Char) : Option Float :=
  (decimal? cs).map Decimal.toFloat

end ScriptHost.Number
