import Mathlib.Algebra.Order.Floor.Ring
import Mathlib.Data.Rat.Floor
import Mathlib.Tactic.FieldSimp
import Mathlib.Tactic.Linarith
import ScriptHost.Proofs.Run.Action
import Std.Data.String.ToInt

/-!
# Integer expressions

An expression whose operands are integers has a value in the integers, taken modulo `2 ^ 64` after each
sum, difference and product, unless a zero divisor is reached. Evaluating it computes this value: words
of 64 bits lose nothing on the way, also where a quotient is rounded.
-/

namespace ScriptHost.Expr

open Number

/-! ### Integers and words -/

/-- An integer brought into the range of words by a multiple of `2 ^ 64`. -/
def wrap (z : Int) : Int :=
  z.bmod (2 ^ 64)

theorem toInt_ofInt (z : Int) : (Int64.ofInt z).toInt = wrap z :=
  Int64.toInt_ofInt

theorem wrap_eq_self {z : Int} (hlow : -2 ^ 63 ≤ z) (hhigh : z < 2 ^ 63) : wrap z = z := by
  rw [wrap, Int.bmod_eq_of_le] <;> omega

theorem wrap_toInt (a : Int64) : wrap a.toInt = a.toInt :=
  wrap_eq_self a.le_toInt a.toInt_lt

/-! ### Quotients -/

/-- The quotient of two integers, rounded down. -/
def quotient (a b : Int) : Int :=
  ⌊(a / b : ℚ)⌋

/-- What is left of the dividend. -/
def remainder (a b : Int) : Int :=
  a - b * quotient a b

/-- The Euclidean quotient is rounded up exactly if the divisor is negative and does not go into the
dividend. -/
theorem quotient_eq (a : Int) {b : Int} (hb : b ≠ 0) :
    quotient a b = if b < 0 ∧ a % b ≠ 0 then a / b - 1 else a / b := by
  have hb' : (b : ℚ) ≠ 0 := Int.cast_ne_zero.2 hb
  have hdivide : (a / b : ℚ) = (a / b : Int) + (a % b : Int) / b := by
    have hcast : (a : ℚ) = b * (a / b : Int) + (a % b : Int) := by
      exact_mod_cast (Int.mul_ediv_add_emod a b).symm
    rw [hcast]
    field_simp
  have hnonneg : (0 : ℚ) ≤ (a % b : Int) := Int.cast_nonneg (Int.emod_nonneg a hb)
  have hlt : ((a % b : Int) : ℚ) < |(b : ℚ)| := by
    exact_mod_cast Int.emod_lt_abs a hb
  rw [quotient, Int.floor_eq_iff, hdivide]
  rcases lt_or_gt_of_ne hb with hneg | hpos
  · have hneg' : (b : ℚ) < 0 := Int.cast_lt_zero.2 hneg
    rw [abs_of_neg hneg'] at hlt
    split
    · next hup =>
      have hpos : (0 : ℚ) < (a % b : Int) := lt_of_le_of_ne hnonneg (by exact_mod_cast hup.2.symm)
      have hlow : (-1 : ℚ) < (a % b : Int) / b := by rw [lt_div_iff_of_neg hneg']; linarith
      have hhigh : ((a % b : Int) : ℚ) / b < 0 := div_neg_of_pos_of_neg hpos hneg'
      push_cast
      constructor <;> linarith
    · next hexact =>
      have hzero : a % b = 0 := by
        by_contra hne
        exact hexact ⟨hneg, hne⟩
      simp [hzero]
  · have hpos' : (0 : ℚ) < b := Int.cast_pos.2 hpos
    rw [abs_of_pos hpos'] at hlt
    rw [if_neg fun h => absurd h.1 (not_lt_of_gt hpos)]
    have hlow : (0 : ℚ) ≤ (a % b : Int) / b := div_nonneg hnonneg hpos'.le
    have hhigh : ((a % b : Int) : ℚ) / b < 1 := (div_lt_one hpos').2 hlt
    constructor <;> linarith

theorem remainder_eq (a : Int) {b : Int} (hb : b ≠ 0) :
    remainder a b = if b < 0 ∧ a % b ≠ 0 then a % b + b else a % b := by
  have hdivide := Int.mul_ediv_add_emod a b
  rw [remainder, quotient_eq a hb]
  split
  · rw [Int.mul_sub]
    omega
  · omega

/-- The remainder is smaller than the divisor and has its sign. -/
theorem remainder_bounds (a : Int) {b : Int} (hb : b ≠ 0) :
    |remainder a b| < |b| ∧ (0 < b → 0 ≤ remainder a b) ∧ (b < 0 → remainder a b ≤ 0) := by
  have hnonneg := Int.emod_nonneg a hb
  have hlt := Int.emod_lt_abs a hb
  rw [remainder_eq a hb]
  rcases lt_or_gt_of_ne hb with hneg | hpos
  · rw [abs_of_neg hneg] at hlt ⊢
    split
    · rw [abs_of_neg] <;> omega
    · rw [abs_of_nonneg hnonneg]
      omega
  · rw [abs_of_pos hpos] at hlt ⊢
    rw [if_neg fun h => absurd h.1 (not_lt_of_gt hpos), abs_of_nonneg hnonneg]
    omega

/-! ### Division of words -/

variable {a b : Int64}

theorem toInt_ne_zero (hb : b ≠ 0) : b.toInt ≠ 0 := fun h => hb (Int64.toInt_inj.1 h)

theorem toInt_euclidMod (a : Int64) (hb : b ≠ 0) :
    (euclidMod a b).toInt = a.toInt % b.toInt := by
  have hnonneg := Int.emod_nonneg a.toInt (toInt_ne_zero hb)
  have hlt := Int.emod_lt_abs a.toInt (toInt_ne_zero hb)
  have hlow := b.le_toInt
  have hhigh := b.toInt_lt
  rw [euclidMod, toInt_ofInt]
  rcases abs_cases b.toInt with ⟨habs, -⟩ | ⟨habs, -⟩
  · exact wrap_eq_self (by omega) (by omega)
  · exact wrap_eq_self (by omega) (by omega)

theorem roundsUp_iff (a : Int64) (hb : b ≠ 0) :
    roundsUp a b = true ↔ b.toInt < 0 ∧ a.toInt % b.toInt ≠ 0 := by
  have hmod := toInt_euclidMod a hb
  have hzero : euclidMod a b ≠ 0 ↔ a.toInt % b.toInt ≠ 0 := by
    rw [← hmod, ne_eq, ne_eq, ← Int64.toInt_inj]
    rfl
  rw [roundsUp, Bool.and_eq_true, decide_eq_true_eq, Int64.lt_iff_toInt_lt, bne_iff_ne, hzero]
  rfl

/-- The quotient of two words is no word only if it is that of the least word by minus one. -/
theorem toInt_euclidDiv (hb : b ≠ 0) (hfits : ¬(a = Int64.minValue ∧ b = -1)) :
    (euclidDiv a b).toInt = a.toInt / b.toInt := by
  have hb' := toInt_ne_zero hb
  have hsize := Int.natAbs_ediv_le_natAbs a.toInt b.toInt
  have hnonneg := Int.emod_nonneg a.toInt hb'
  have hdivide := Int.mul_ediv_add_emod a.toInt b.toInt
  have hlow := a.le_toInt
  have hhigh := a.toInt_lt
  have hlow' := b.le_toInt
  have hlt := Int.emod_lt_abs a.toInt hb'
  rw [euclidDiv, toInt_ofInt]
  refine wrap_eq_self (by omega) (by_contra fun hge => hfits ?_)
  have hquotient : a.toInt / b.toInt = 2 ^ 63 := by omega
  rw [hquotient] at hdivide
  rcases abs_cases b.toInt with ⟨habs, -⟩ | ⟨habs, -⟩
  all_goals
    have hleast : a.toInt = -2 ^ 63 := by omega
    have hminus : b.toInt = -1 := by omega
    exact ⟨Int64.toInt_inj.1 hleast, Int64.toInt_inj.1 hminus⟩

theorem not_least_by_minus_one (hb : b ≠ 0) (hup : roundsUp a b = true) :
    ¬(a = Int64.minValue ∧ b = -1) := by
  rintro ⟨-, rfl⟩
  have hexact : a.toInt % (-1 : Int64).toInt = 0 := by
    have hminus : (-1 : Int64).toInt = -1 := by decide
    rw [hminus, Int.emod_neg, Int.emod_one]
  exact ((roundsUp_iff a hb).1 hup).2 hexact

/-- Where the quotient is rounded up, one can be taken from it within the range of words. -/
theorem toInt_euclidDiv_sub_one (hb : b ≠ 0) (hup : roundsUp a b = true) :
    (euclidDiv a b - 1).toInt = (euclidDiv a b).toInt - 1 := by
  have hneg := ((roundsUp_iff a hb).1 hup).1
  have hsize := Int.natAbs_ediv_le_natAbs a.toInt b.toInt
  have hnonneg := Int.emod_nonneg a.toInt (toInt_ne_zero hb)
  have hdivide := Int.mul_ediv_add_emod a.toInt b.toInt
  have hlow := a.le_toInt
  have hhigh := a.toInt_lt
  have hquotient := toInt_euclidDiv hb (not_least_by_minus_one hb hup)
  have hword := (euclidDiv a b).toInt_lt
  have hone : (1 : Int64).toInt = 1 := by decide
  rw [Int64.toInt_sub, hone]
  refine wrap_eq_self (by_contra fun hlt => ?_) (by omega)
  -- the quotient would be the least word, and the dividend the negative of one
  have hleast : a.toInt / b.toInt = -2 ^ 63 := by omega
  rw [hleast] at hdivide
  omega

/-- Where the quotient is rounded up, the divisor can be added to the remainder within the range of
words. -/
theorem toInt_euclidMod_add (hb : b ≠ 0) (hup : roundsUp a b = true) :
    (euclidMod a b + b).toInt = (euclidMod a b).toInt + b.toInt := by
  have hneg := ((roundsUp_iff a hb).1 hup).1
  have hnonneg := Int.emod_nonneg a.toInt (toInt_ne_zero hb)
  have hlt := Int.emod_lt_abs a.toInt (toInt_ne_zero hb)
  have hlow := b.le_toInt
  rw [abs_of_neg hneg] at hlt
  rw [Int64.toInt_add, toInt_euclidMod a hb]
  exact wrap_eq_self (by omega) (by omega)

theorem toInt_floorDiv (a : Int64) (hb : b ≠ 0) :
    (floorDiv a b).toInt = wrap (quotient a.toInt b.toInt) := by
  rw [floorDiv, quotient_eq _ (toInt_ne_zero hb)]
  by_cases hup : roundsUp a b = true
  · rw [if_pos hup, if_pos ((roundsUp_iff a hb).1 hup), ← wrap_toInt,
      toInt_euclidDiv_sub_one hb hup, toInt_euclidDiv hb (not_least_by_minus_one hb hup)]
  · rw [if_neg hup, if_neg fun h => hup ((roundsUp_iff a hb).2 h), euclidDiv, toInt_ofInt]

theorem toInt_floorMod (a : Int64) (hb : b ≠ 0) :
    (floorMod a b).toInt = remainder a.toInt b.toInt := by
  rw [floorMod, remainder_eq _ (toInt_ne_zero hb)]
  by_cases hup : roundsUp a b = true
  · rw [if_pos hup, if_pos ((roundsUp_iff a hb).1 hup), toInt_euclidMod_add hb hup,
      toInt_euclidMod a hb]
  · rw [if_neg hup, if_neg fun h => hup ((roundsUp_iff a hb).2 h), toInt_euclidMod a hb]

/-- The quotient of two words is a word, but for that of the least word by minus one. -/
theorem wrap_quotient (hb : b ≠ 0) (hfits : ¬(a = Int64.minValue ∧ b = -1)) :
    wrap (quotient a.toInt b.toInt) = quotient a.toInt b.toInt := by
  rw [← toInt_floorDiv a hb, floorDiv, quotient_eq _ (toInt_ne_zero hb)]
  by_cases hup : roundsUp a b = true
  · rw [if_pos hup, if_pos ((roundsUp_iff a hb).1 hup), toInt_euclidDiv_sub_one hb hup,
      toInt_euclidDiv hb hfits]
  · rw [if_neg hup, if_neg fun h => hup ((roundsUp_iff a hb).2 h), toInt_euclidDiv hb hfits]

/-- The words that a division of `a` by `b` computes are the integers they stand for: the quotient and the
remainder, and the steps that correct them where the Euclidean quotient is rounded up. -/
structure ExactDivision (a b : Int64) : Prop where
  quotient_or_wraps : (floorDiv a b).toInt = quotient a.toInt b.toInt ∨
    a = Int64.minValue ∧ b = -1 ∧ floorDiv a b = Int64.minValue
  remainder : (floorMod a b).toInt = remainder a.toInt b.toInt
  sum : a.toInt = b.toInt * quotient a.toInt b.toInt + (floorMod a b).toInt
  small : |(floorMod a b).toInt| < |b.toInt|
  sign : (0 < b.toInt → 0 ≤ (floorMod a b).toInt) ∧ (b.toInt < 0 → (floorMod a b).toInt ≤ 0)
  step_down : roundsUp a b = true → (euclidDiv a b - 1).toInt = (euclidDiv a b).toInt - 1
  step_back : roundsUp a b = true → (euclidMod a b + b).toInt = (euclidMod a b).toInt + b.toInt

theorem exactDivision (a : Int64) (hb : b ≠ 0) : ExactDivision a b := by
  have hrest := toInt_floorMod a hb
  have hbounds := remainder_bounds a.toInt (toInt_ne_zero hb)
  rw [← hrest] at hbounds
  refine {
    quotient_or_wraps := ?_
    remainder := hrest
    sum := by rw [hrest, Expr.remainder]; omega
    small := hbounds.1
    sign := hbounds.2
    step_down := toInt_euclidDiv_sub_one hb
    step_back := toInt_euclidMod_add hb }
  by_cases hfits : a = Int64.minValue ∧ b = -1
  · obtain ⟨rfl, rfl⟩ := hfits
    exact .inr ⟨rfl, rfl, by decide⟩
  · exact .inl ((toInt_floorDiv a hb).trans (wrap_quotient hb hfits))

/-! ### Operators -/

/-- A truth as an integer. -/
def ofTruth (p : Prop) [Decidable p] : Int :=
  if p then 1 else 0

/-- What a unary operator makes of an integer. -/
def UnaryOp.onInteger (a : Int) : UnaryOp → Int
  | .negate => wrap (-a)
  | .plus => a
  | .not => ofTruth (a = 0)

/-- What an operator makes of two integers; nothing if it divides by zero. -/
def BinaryOp.onIntegers? (a b : Int) : BinaryOp → Option Int
  | .add => some (wrap (a + b))
  | .sub => some (wrap (a - b))
  | .mul => some (wrap (a * b))
  | .div => if b = 0 then none else some (wrap (quotient a b))
  | .rem => if b = 0 then none else some (remainder a b)
  | .lt => some (ofTruth (a < b))
  | .gt => some (ofTruth (a > b))
  | .le => some (ofTruth (a ≤ b))
  | .ge => some (ofTruth (a ≥ b))
  | .eq | .textEq => some (ofTruth (a = b))
  | .ne | .textNe => some (ofTruth (a ≠ b))

/-- The operators that divide. -/
def BinaryOp.divides : BinaryOp → Bool
  | .div | .rem => true
  | _ => false

theorem BinaryOp.onIntegers?_eq_none_iff {op : BinaryOp} {a b : Int} :
    op.onIntegers? a b = none ↔ op.divides = true ∧ b = 0 := by
  cases op <;> simp [onIntegers?, divides]

theorem integerText_inj : integerText a = integerText b ↔ a = b := by
  refine ⟨fun h => Int64.toInt_inj.1 ?_, fun h => h ▸ rfl⟩
  rw [integerText, integerText] at h
  exact Int.repr_inj.1 h

theorem compare_words (a b : Int64) : compare a b = compare a.toInt b.toInt := by
  simp [compare, compareOfLessAndEq, Int64.lt_iff_toInt_lt, ← Int64.toInt_inj]

theorem toInt_ofBool (p : Bool) : (if p then 1 else 0 : Int64).toInt = ofTruth (p = true) := by
  cases p <;> decide

theorem applyUnary_int (op : UnaryOp) (a : Int64) :
    ∃ c : Int64, c.toInt = op.onInteger a.toInt ∧ applyUnary op (.int a) = .ok (.int c) := by
  cases op with
  | negate => exact ⟨-a, Int64.toInt_neg a, rfl⟩
  | plus => exact ⟨a, rfl, rfl⟩
  | not =>
    refine ⟨_, ?_, rfl⟩
    rw [toInt_ofBool]
    simp [UnaryOp.onInteger, ofTruth, ← Int64.toInt_inj]

theorem applyBinary_int (op : BinaryOp) (a b : Int64) :
    (∃ c : Int64, op.onIntegers? a.toInt b.toInt = some c.toInt ∧
      applyBinary op (.int a) (.int b) = .ok (.int c)) ∨
    op.onIntegers? a.toInt b.toInt = none ∧
      applyBinary op (.int a) (.int b) = .error .divideByZero := by
  have hcompare := compare_words a b
  have hzero : b.toInt = 0 ↔ b = 0 := Int64.toInt_inj (y := 0)
  cases op with
  | add => exact .inl ⟨a + b, congrArg some (Int64.toInt_add a b).symm, rfl⟩
  | sub => exact .inl ⟨a - b, congrArg some (Int64.toInt_sub a b).symm, rfl⟩
  | mul => exact .inl ⟨a * b, congrArg some (Int64.toInt_mul a b).symm, rfl⟩
  | div =>
    by_cases hb : b = 0
    · exact .inr ⟨if_pos (hzero.2 hb), if_pos hb⟩
    · refine .inl ⟨floorDiv a b, ?_, if_neg hb⟩
      rw [toInt_floorDiv a hb]
      exact if_neg (toInt_ne_zero hb)
  | rem =>
    by_cases hb : b = 0
    · exact .inr ⟨if_pos (hzero.2 hb), if_pos hb⟩
    · refine .inl ⟨floorMod a b, ?_, if_neg hb⟩
      rw [toInt_floorMod a hb]
      exact if_neg (toInt_ne_zero hb)
  | lt | gt | le | ge | eq | ne =>
    refine .inl ⟨_, congrArg some ?_, rfl⟩
    rw [toInt_ofBool]
    simp [ofTruth, compareValues, hcompare, compare_lt_iff_lt, compare_gt_iff_gt]
  | textEq | textNe =>
    refine .inl ⟨_, congrArg some ?_, rfl⟩
    rw [toInt_ofBool]
    simp [ofTruth, Value.toText, integerText_inj, Int64.toInt_inj]

/-! ### Expressions -/

/-- An expression of integers and operators. -/
inductive Term
  | literal (n : Int64)
  | unary (op : UnaryOp) (operand : Term)
  | binary (op : BinaryOp) (left right : Term)
  | both (left right : Term)
  | either (left right : Term)
  | choice (condition yes no : Term)

namespace Term

/-- The expression that a term is. -/
def toExpr : Term → Expr
  | .literal n => .literal (.int n)
  | .unary op t => .unary op t.toExpr
  | .binary op l r => .binary op l.toExpr r.toExpr
  | .both l r => .both l.toExpr r.toExpr
  | .either l r => .either l.toExpr r.toExpr
  | .choice c y n => .choice c.toExpr y.toExpr n.toExpr

/-- The value of a term in the integers. It has none if a zero divisor is reached; operands that are not
needed do not count. -/
def value? : Term → Option Int
  | .literal n => some n.toInt
  | .unary op t => t.value?.bind fun a => some (op.onInteger a)
  | .binary op l r => l.value?.bind fun a => r.value?.bind fun b => op.onIntegers? a b
  | .both l r => l.value?.bind fun a =>
    if a = 0 then some 0 else r.value?.bind fun b => some (ofTruth (b ≠ 0))
  | .either l r => l.value?.bind fun a =>
    if a = 0 then r.value?.bind fun b => some (ofTruth (b ≠ 0)) else some 1
  | .choice c y n => c.value?.bind fun a => if a = 0 then n.value? else y.value?

/-- Evaluating a term, operands from the left and only those that are needed, comes to a zero
divisor. -/
inductive ReachesZeroDivisor : Term → Prop
  | divisor {op : BinaryOp} {l r : Term} {a : Int} (hop : op.divides = true)
      (hl : l.value? = some a) (hr : r.value? = some 0) : ReachesZeroDivisor (.binary op l r)
  | operand {op : UnaryOp} {t : Term} (h : ReachesZeroDivisor t) : ReachesZeroDivisor (.unary op t)
  | left {op : BinaryOp} {l r : Term} (h : ReachesZeroDivisor l) :
      ReachesZeroDivisor (.binary op l r)
  | right {op : BinaryOp} {l r : Term} {a : Int} (hl : l.value? = some a)
      (h : ReachesZeroDivisor r) : ReachesZeroDivisor (.binary op l r)
  | bothLeft {l r : Term} (h : ReachesZeroDivisor l) : ReachesZeroDivisor (.both l r)
  | bothRight {l r : Term} {a : Int} (hl : l.value? = some a) (ha : a ≠ 0)
      (h : ReachesZeroDivisor r) : ReachesZeroDivisor (.both l r)
  | eitherLeft {l r : Term} (h : ReachesZeroDivisor l) : ReachesZeroDivisor (.either l r)
  | eitherRight {l r : Term} (hl : l.value? = some 0) (h : ReachesZeroDivisor r) :
      ReachesZeroDivisor (.either l r)
  | condition {c y n : Term} (h : ReachesZeroDivisor c) : ReachesZeroDivisor (.choice c y n)
  | yes {c y n : Term} {a : Int} (hc : c.value? = some a) (ha : a ≠ 0)
      (h : ReachesZeroDivisor y) : ReachesZeroDivisor (.choice c y n)
  | no {c y n : Term} (hc : c.value? = some 0) (h : ReachesZeroDivisor n) :
      ReachesZeroDivisor (.choice c y n)

theorem ReachesZeroDivisor.value?_eq_none {t : Term} (h : t.ReachesZeroDivisor) :
    t.value? = none := by
  induction h with
  | divisor hop hl hr =>
    simp [value?, hl, hr, BinaryOp.onIntegers?_eq_none_iff, hop]
  | operand _ ih | left _ ih | bothLeft _ ih | eitherLeft _ ih | condition _ ih => simp [value?, ih]
  | right hl _ ih => simp [value?, hl, ih]
  | bothRight hl ha _ ih | yes hl ha _ ih => simp [value?, hl, ha, ih]
  | eitherRight hl _ ih | no hl _ ih => simp [value?, hl, ih]

/-- A term has no value exactly if evaluating it comes to a zero divisor. -/
theorem value?_eq_none_iff {t : Term} : t.value? = none ↔ t.ReachesZeroDivisor := by
  refine ⟨fun h => ?_, ReachesZeroDivisor.value?_eq_none⟩
  induction t with
  | literal n => cases h
  | unary op t ih =>
    cases ht : t.value? with
    | none => exact .operand (ih ht)
    | some a => simp [value?, ht] at h
  | binary op l r ihl ihr =>
    cases hl : l.value? with
    | none => exact .left (ihl hl)
    | some a =>
      cases hr : r.value? with
      | none => exact .right hl (ihr hr)
      | some b =>
        simp only [value?, hl, hr, Option.bind_some, BinaryOp.onIntegers?_eq_none_iff] at h
        exact .divisor h.1 hl (h.2 ▸ hr)
  | both l r ihl ihr =>
    cases hl : l.value? with
    | none => exact .bothLeft (ihl hl)
    | some a =>
      by_cases ha : a = 0
      · simp [value?, hl, ha] at h
      · cases hr : r.value? with
        | none => exact .bothRight hl ha (ihr hr)
        | some b => simp [value?, hl, hr, ha] at h
  | either l r ihl ihr =>
    cases hl : l.value? with
    | none => exact .eitherLeft (ihl hl)
    | some a =>
      by_cases ha : a = 0
      · cases hr : r.value? with
        | none => exact .eitherRight (ha ▸ hl) (ihr hr)
        | some b => simp [value?, hl, hr, ha] at h
      · simp [value?, hl, ha] at h
  | choice c y n ihc ihy ihn =>
    cases hc : c.value? with
    | none => exact .condition (ihc hc)
    | some a =>
      by_cases ha : a = 0
      · refine .no (ha ▸ hc) (ihn ?_)
        simpa [value?, hc, ha] using h
      · refine .yes hc ha (ihy ?_)
        simpa [value?, hc, ha] using h

end Term

/-! ### Evaluation -/

/-- Code ends with the word of an integer, or with the complaint about a zero divisor, and leaves the
world as it is. -/
def Yields (code : Exec Value) (w : World) : Option Int → Prop
  | some z => ∃ c : Int64, c.toInt = z ∧ code.run w = .ok (.ok (.int c)) w
  | none => code.run w = .ok (.error (.error "divide by zero")) w

namespace Yields

variable {w : World}

theorem pure (a : Int64) : Yields (Pure.pure (.int a)) w (some a.toInt) :=
  ⟨a, rfl, rfl⟩

theorem bind {code : Exec Value} {f : Value → Exec Value} {z? : Option Int} {g : Int → Option Int}
    (hcode : Yields code w z?) (hf : ∀ a : Int64, z? = some a.toInt → Yields (f (.int a)) w (g a.toInt)) :
    Yields (code >>= f) w (z?.bind g) := by
  cases z? with
  | none => exact Act.bind_of_ok hcode _
  | some z =>
    obtain ⟨a, rfl, hrun⟩ := hcode
    have hrest := hf a rfl
    rw [Option.bind_some]
    unfold Yields at hrest ⊢
    rwa [Exec.run_bind_of_ok hrun]

theorem of_ok {result : Except Fault Value} {a : Int64} (h : result = .ok (.int a)) :
    Yields (Exec.ofFault result) w (some a.toInt) :=
  ⟨a, rfl, h ▸ rfl⟩

theorem of_error {result : Except Fault Value} (h : result = .error .divideByZero) :
    Yields (Exec.ofFault result) w none :=
  h ▸ rfl

theorem applyUnary (op : UnaryOp) (a : Int64) :
    Yields (Exec.ofFault (Expr.applyUnary op (.int a))) w (some (op.onInteger a.toInt)) := by
  obtain ⟨c, hc, happly⟩ := applyUnary_int op a
  exact hc ▸ of_ok happly

theorem applyBinary (op : BinaryOp) (a b : Int64) :
    Yields (Exec.ofFault (Expr.applyBinary op (.int a) (.int b))) w
      (op.onIntegers? a.toInt b.toInt) := by
  obtain ⟨c, hc, happly⟩ | ⟨hnone, happly⟩ := applyBinary_int op a b
  · exact hc ▸ of_ok happly
  · exact hnone ▸ of_error happly

/-- The truth of an integer is that it is not zero. -/
theorem ite_truth {yes no : Exec Value} {y n : Option Int} (a : Int64) (hyes : Yields yes w y)
    (hno : Yields no w n) :
    Yields (do if ← Exec.ofFault (Value.truth (.int a)) then yes else no) w
      (if a.toInt = 0 then n else y) := by
  have hzero : a.toInt = 0 ↔ a = 0 := Int64.toInt_inj (y := 0)
  by_cases ha : a = 0
  · rw [if_pos (hzero.2 ha)]
    subst ha
    exact hno
  · rw [if_neg (hzero.not.2 ha)]
    have htruth : Value.truth (.int a) = .ok true := by simp [Value.truth, ha]
    rw [htruth]
    exact hyes

theorem ofBool_truth (a : Int64) :
    Yields (do return .ofBool (← Exec.ofFault (Value.truth (.int a)))) w
      (some (ofTruth (a.toInt ≠ 0))) := by
  refine ⟨if a != 0 then 1 else 0, ?_, rfl⟩
  rw [toInt_ofBool]
  simp [ofTruth, ← Int64.toInt_inj]

end Yields

namespace Term

/-- Evaluating a term computes its value. By induction on the term: each operator is applied to the words
of the integers that its operands have. -/
theorem yields_evalExpr (e : Engine) (i : InterpId) (w : World) (t : Term) :
    Yields (evalExpr e i t.toExpr) w t.value? := by
  induction t with
  | literal n => exact .pure n
  | unary op t ih => exact ih.bind fun a _ => .applyUnary op a
  | binary op l r ihl ihr => exact ihl.bind fun a _ => ihr.bind fun b _ => .applyBinary op a b
  | both l r ihl ihr =>
    refine ihl.bind fun a _ => .ite_truth a (ihr.bind fun b _ => .ofBool_truth b) (.pure 0)
  | either l r ihl ihr =>
    refine ihl.bind fun a _ => .ite_truth a (.pure 1) (ihr.bind fun b _ => .ofBool_truth b)
  | choice c y n ihc ihy ihn => exact ihc.bind fun a _ => .ite_truth a ihy ihn

/-- A term of integers evaluates to its value, or to the complaint about a zero divisor exactly if one is
reached, and nothing else happens; a quotient and a remainder are computed without leaving the range of
words, but for the quotient of the least word by minus one. -/
theorem eval_toExpr (e : Engine) (i : InterpId) (w : World) (t : Term) :
    ((∃ n : Int64, t.value? = some n.toInt ∧
        (evalExpr e i t.toExpr).run w = .ok (.ok (.int n)) w) ∨
      (evalExpr e i t.toExpr).run w = .ok (.error (.error "divide by zero")) w) ∧
    ((evalExpr e i t.toExpr).run w = .ok (.error (.error "divide by zero")) w ↔
      t.ReachesZeroDivisor) ∧
    ∀ a b : Int64, b ≠ 0 → ExactDivision a b := by
  have hyields := yields_evalExpr e i w t
  refine ⟨?_, ⟨fun hrun => ?_, fun hreach => ?_⟩, fun a b hb => exactDivision a hb⟩
  · cases hvalue : t.value? with
    | none =>
      rw [hvalue] at hyields
      exact .inr hyields
    | some z =>
      rw [hvalue] at hyields
      obtain ⟨n, rfl, hrun⟩ := hyields
      exact .inl ⟨n, rfl, hrun⟩
  · rw [← value?_eq_none_iff]
    cases hvalue : t.value? with
    | none => rfl
    | some z =>
      rw [hvalue] at hyields
      obtain ⟨n, -, hword⟩ := hyields
      rw [hword] at hrun
      cases hrun
  · rw [value?_eq_none_iff.2 hreach] at hyields
    exact hyields

end Term

example : floorDiv (-7) 2 = -4 ∧ floorMod (-7) 2 = 1 ∧ floorMod 7 (-2) = -1 := by decide

end ScriptHost.Expr
