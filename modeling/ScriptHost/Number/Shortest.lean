/-!
# Shortest decimal texts of doubles

A finite double is `m · 2 ^ q`. Every real number between the midpoints to its two neighbours
rounds to it, the midpoints included if `m` is even. Of the decimals in that interval with the
fewest digits the nearest one is written, in positional notation without exponent.
-/

namespace ScriptHost.Number

/-- A positive double: `mantissa · 2 ^ power`. The gap below is half the gap above when `narrow`
holds. -/
structure Binary where
  mantissa : Nat
  power : Int
  narrow : Bool
deriving DecidableEq, Repr

/-- The parts of a finite double other than zero, without its sign. -/
def Binary.ofBits (bits : UInt64) : Binary :=
  let fraction : Nat := bits.toNat % Nat.pow 2 52
  let exponent : Nat := bits.toNat / Nat.pow 2 52 % Nat.pow 2 11
  if exponent = 0 then ⟨fraction, -1074, false⟩
  else ⟨Nat.pow 2 52 + fraction, (exponent : Int) - 1075, fraction = 0 ∧ 1 < exponent⟩

/-- Digits and the position of the point: `0.digits · 10 ^ point`. -/
structure Digits where
  digits : Nat
  point : Int
deriving DecidableEq, Repr

/-- The numerator and denominator of `mantissa · 2 ^ power · 10 ^ shift`, both times four so that
midpoints are whole. -/
def Binary.scale (b : Binary) (shift : Int) : Nat × Nat :=
  (4 * b.mantissa * Nat.pow 2 b.power.toNat * Nat.pow 10 shift.toNat,
    4 * Nat.pow 2 (-b.power).toNat * Nat.pow 10 (-shift).toNat)

/-- A quarter of a unit in the last place at the scale of `Binary.scale`. -/
def Binary.quarter (b : Binary) (shift : Int) : Nat :=
  Nat.pow 2 b.power.toNat * Nat.pow 10 shift.toNat

/-- Whether the whole number `n` at a scale rounds to the double. -/
def Binary.covers (b : Binary) (shift : Int) (n : Nat) : Bool :=
  let (num, den) := b.scale shift
  let quarter := b.quarter shift
  let low := num - (if b.narrow then quarter else 2 * quarter)
  let high := num + 2 * quarter
  if b.mantissa % 2 = 0 then low ≤ n * den && n * den ≤ high
  else low < n * den && n * den < high

/-- The whole number at a scale nearest to the double among those that round to it. -/
def Binary.grid? (b : Binary) (shift : Int) : Option Nat :=
  let (num, den) := b.scale shift
  let below := num / den
  let above := below + 1
  match b.covers shift below, b.covers shift above with
  | true, true => some (if above * den - num < num - below * den then above else below)
  | true, false => some below
  | false, true => some above
  | false, false => none

/-- The least number of places before the point that hold the whole part, counted from `start`. -/
def Binary.pointUp (b : Binary) : Nat → Nat → Int
  | 0, point => point
  | fuel + 1, point =>
    let (num, den) := b.scale 0
    if num < den * Nat.pow 10 point then point else b.pointUp fuel (point + 1)

/-- How many zeros follow the point before the first digit. -/
def Binary.pointDown (b : Binary) : Nat → Nat → Int
  | 0, zeros => -(zeros : Int)
  | fuel + 1, zeros =>
    let (num, den) := b.scale 0
    if den ≤ num * Nat.pow 10 (zeros + 1) then -(zeros : Int) else b.pointDown fuel (zeros + 1)

/-- The position of the point: the double lies between a tenth and one times ten to this power. -/
def Binary.point (b : Binary) : Int :=
  let (num, den) := b.scale 0
  if num < den then b.pointDown 330 0 else b.pointUp 310 1

/-- The shortest digits, trying `count` digits and then more, `fuel` times in all. -/
def Binary.search (b : Binary) (point : Int) : Nat → Nat → Digits
  | 0, count => ⟨((b.scale (count - point)).1 / (b.scale (count - point)).2), point⟩
  | fuel + 1, count =>
    match b.grid? (count - point) with
    | some n => if n = Nat.pow 10 count then ⟨1, point + 1⟩ else ⟨n, point⟩
    | none => b.search point fuel (count + 1)

/-- The shortest digits of a positive double. -/
def Binary.shortest (b : Binary) : Digits :=
  b.search b.point 17 1

/-- The decimal digits in positional notation. -/
def Digits.positional (d : Digits) : String :=
  let digits := (toString d.digits).toList
  let count := digits.length
  if d.point ≤ 0 then
    "0." ++ String.ofList (List.replicate (-d.point).toNat '0' ++ digits)
  else if count ≤ d.point.toNat then
    String.ofList (digits ++ List.replicate (d.point.toNat - count) '0')
  else
    String.ofList (digits.take d.point.toNat ++ '.' :: digits.drop d.point.toNat)

/-- The shortest text of a double: `inf` and `NaN` for those that are no numbers, a minus also
before a zero with that sign, and no point in a whole number. -/
def realText (x : Float) : String :=
  if x.isNaN then "NaN"
  else
    let bits := x.toBits
    let sign := if bits.toNat / Nat.pow 2 63 = 1 then "-" else ""
    let magnitude := bits.toNat % Nat.pow 2 63
    if x.isInf then sign ++ "inf"
    else if magnitude = 0 then sign ++ "0"
    else sign ++ (Binary.ofBits (UInt64.ofNat magnitude)).shortest.positional

end ScriptHost.Number
