import ScriptHost.Expr.Value
import Mathlib.Tactic.Common
import Mathlib.Tactic.IntervalCases

/-!
# Decimal texts

The decimal digits of a number are read back as that number, as digits in base ten and as a field with
bounds.
-/

namespace ScriptHost.Number

open Text

/-! ### Digits -/

/-- What holds of the ten decimal digits holds of every character that is one. -/
theorem of_isDigit {P : Char → Prop} (hall : ∀ d : Fin 10, P (Char.ofNat (48 + d))) {c : Char}
    (hc : c.isDigit) : P c := by
  have hval : 48 ≤ c.val ∧ c.val ≤ 57 := by simpa [Char.isDigit] using hc
  have hlow : 48 ≤ c.toNat := UInt32.le_iff_toNat_le.1 hval.1
  have hhigh : c.toNat ≤ 57 := UInt32.le_iff_toNat_le.1 hval.2
  have hdigit : Char.ofNat (48 + (c.toNat - 48)) = c := by
    rw [Nat.add_sub_cancel' hlow, Char.ofNat_toNat]
  rw [← hdigit]
  exact hall ⟨c.toNat - 48, by omega⟩

theorem digitIn_of_isDigit {c : Char} (hc : c.isDigit) :
    digitIn 10 c = some (c.toNat - '0'.toNat) :=
  of_isDigit (P := fun c => digitIn 10 c = some (c.toNat - '0'.toNat)) (by decide) hc

theorem digitsFrom_of_isDigit {cs : List Char} (hcs : ∀ c ∈ cs, c.isDigit) (acc : Nat) :
    digitsFrom 10 acc cs = some (Nat.ofDigitChars 10 cs acc) := by
  induction cs generalizing acc with
  | nil => rfl
  | cons c cs ih =>
    rw [List.forall_mem_cons] at hcs
    rw [digitsFrom, digitIn_of_isDigit hcs.1, Option.bind_some, ih hcs.2, Nat.ofDigitChars_cons,
      Nat.mul_comm]

theorem isDigit_of_mem_toDigits {n : Nat} {c : Char} (hc : c ∈ Nat.toDigits 10 n) : c.isDigit :=
  Nat.isDigit_of_mem_toDigits (by decide) (by decide) hc

theorem digits?_toDigits (n : Nat) : digits? 10 (Nat.toDigits 10 n) = some n := by
  rw [digits?, if_neg (by simp),
    digitsFrom_of_isDigit fun _ => isDigit_of_mem_toDigits,
    Nat.ofDigitChars_toDigits (by decide) (by decide)]

/-- Texts that differ in the number at their end differ. -/
theorem numbered_inj {label : String} {m n : Nat} (h : s!"{label}{m}" = s!"{label}{n}") : m = n := by
  have hdigits : Nat.toDigits 10 m = Nat.toDigits 10 n := by
    have hlist := congrArg String.toList h
    simpa [String.toList_append, Nat.toList_repr] using hlist
  have hread := congrArg (digits? 10) hdigits
  rw [digits?_toDigits, digits?_toDigits] at hread
  exact Option.some.inj hread

/-! ### Literals -/

theorem toList_integerText {n : Int64} (hn : 0 ≤ n) :
    (integerText n).toList = Nat.toDigits 10 n.toInt.toNat := by
  have hint : 0 ≤ n.toInt := by simpa [Int64.le_iff_toInt_le] using hn
  obtain ⟨k, hk⟩ := Int.eq_ofNat_of_zero_le hint
  rw [integerText, hk, Int.toNat_natCast]
  exact Nat.toList_repr

theorem exists_toDigits_eq_cons (n : Nat) :
    ∃ c cs, Nat.toDigits 10 n = c :: cs ∧ c.isDigit ∧ ∀ d ∈ cs, d.isDigit := by
  obtain ⟨c, cs, heq⟩ := List.exists_cons_of_ne_nil (Nat.toDigits_ne_nil (n := n) (b := 10))
  have hall : ∀ d ∈ c :: cs, d.isDigit := fun d hd => isDigit_of_mem_toDigits (heq ▸ hd)
  exact ⟨c, cs, heq, hall c List.mem_cons_self, fun d hd => hall d (List.mem_cons_of_mem c hd)⟩

theorem word?_toInt (n : Int64) : word? n.toInt = some n := by
  rw [word?, if_pos ⟨n.le_toInt, n.toInt_lt⟩, Int64.ofInt_toInt]

theorem integerText_ofNat {n : Nat} (hn : n < 2 ^ 63) : integerText (Int64.ofNat n) = toString n := by
  rw [integerText, Int64.toInt_ofNat_of_lt hn]
  rfl

theorem ofNat_nonneg {n : Nat} (hn : n < 2 ^ 63) : 0 ≤ Int64.ofNat n := by
  rw [Int64.le_iff_toInt_le, Int64.toInt_ofNat_of_lt hn]
  exact Int.natCast_nonneg n

/-! ### Fields -/

theorem le_ofDigitChars (cs : List Char) (acc : Nat) : acc ≤ Nat.ofDigitChars 10 cs acc := by
  induction cs generalizing acc with
  | nil => exact Nat.le_refl acc
  | cons c cs ih =>
    rw [Nat.ofDigitChars_cons]
    have := ih (10 * acc + (c.toNat - '0'.toNat))
    omega

/-- Digits are read to their end if the number is within the limit. -/
theorem fieldDigits_of_isDigit {limit : Nat} (beyond : FieldError) {cs : List Char}
    (hcs : ∀ c ∈ cs, c.isDigit) {acc : Nat} (hlimit : Nat.ofDigitChars 10 cs acc ≤ limit) :
    fieldDigits limit beyond acc cs = .ok (Nat.ofDigitChars 10 cs acc) := by
  induction cs generalizing acc with
  | nil => rfl
  | cons c cs ih =>
    rw [List.forall_mem_cons] at hcs
    rw [Nat.ofDigitChars_cons, Nat.mul_comm] at hlimit ⊢
    have hle := Nat.le_trans (le_ofDigitChars cs _) hlimit
    rw [fieldDigits, digitIn_of_isDigit hcs.1]
    dsimp only
    rw [if_neg (Nat.not_lt.2 hle), ih hcs.2 hlimit]

theorem decimalField_toDigits (low : Int) {high : Int} {n : Nat} (hn : (n : Int) ≤ high) :
    decimalField low high (Nat.toDigits 10 n) = .ok (n : Int) := by
  have hvalue : Nat.ofDigitChars 10 (Nat.toDigits 10 n) 0 = n :=
    Nat.ofDigitChars_toDigits (by decide) (by decide)
  have hdigits : fieldDigits high.toNat .overflow 0 (Nat.toDigits 10 n) = .ok n := by
    rw [fieldDigits_of_isDigit .overflow (fun _ => isDigit_of_mem_toDigits) (by omega), hvalue]
  obtain ⟨c, cs, heq, hc, -⟩ := exists_toDigits_eq_cons n
  rw [heq] at hdigits ⊢
  unfold decimalField
  split
  · next h => cases h
  · next h => cases h; cases hc
  · next h => cases h; cases hc
  · rw [hdigits]
    rfl

/-! ### Texts around which there is no white space -/

theorem trimBlanks_of_forall {cs : List Char} (hcs : ∀ c ∈ cs, isBlank c = false) :
    trimBlanks cs = cs := by
  have hdrop : ∀ ds : List Char, (∀ c ∈ ds, isBlank c = false) → ds.dropWhile isBlank = ds := by
    intro ds hds
    cases ds with
    | nil => rfl
    | cons d ds => exact List.dropWhile_cons_of_neg (by simp [hds d List.mem_cons_self])
  rw [trimBlanks, hdrop cs hcs, hdrop _ fun c hc => hcs c (List.mem_reverse.1 hc),
    List.reverse_reverse]

theorem toNat_lt_of_isAlphanum {c : Char} (hc : c.isAlphanum) : c.toNat < 128 := by
  have hbound (d : Char) (hle : c.val ≤ d.val) (hd : d.toNat < 128) : c.toNat < 128 :=
    Nat.lt_of_le_of_lt (UInt32.le_iff_toNat_le.1 hle) hd
  rcases Bool.or_eq_true_iff.1 hc with halpha | hdigit
  · rcases Bool.or_eq_true_iff.1 halpha with hupper | hlower
    · exact hbound 'Z' (of_decide_eq_true hupper).2 (by decide)
    · exact hbound 'z' (of_decide_eq_true (Bool.and_eq_true_iff.1 hlower).2) (by decide)
  · exact hbound '9' (of_decide_eq_true (Bool.and_eq_true_iff.1 hdigit).2) (by decide)

theorem isBlank_of_isAlphanum {c : Char} (hc : c.isAlphanum) : isBlank c = false := by
  have hall : ∀ k : Fin 128, (Char.ofNat k).isAlphanum = true → isBlank (Char.ofNat k) = false := by
    decide
  have hthis := hall ⟨c.toNat, toNat_lt_of_isAlphanum hc⟩
  simp only [Char.ofNat_toNat] at hthis
  exact hthis hc

theorem isBlank_of_isDigit {c : Char} (hc : c.isDigit) : isBlank c = false :=
  isBlank_of_isAlphanum (Bool.or_eq_true_iff.2 (.inr hc))

end ScriptHost.Number
