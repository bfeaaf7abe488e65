import Mathlib.Data.Nat.Digits.Defs
import Mathlib.Tactic.Ring
import ScriptHost.Proofs.Number.Decimal

/-!
# Integer literals

A numeral is one or more digits in base ten, or `0x` or `0X` and one or more digits in base sixteen, and
an integer literal is a numeral with or without a sign. The reader of integers takes every literal whose
numeral is below `2 ^ 63`, for the integer that it denotes. What it takes besides are texts with a second
sign between the `0x` and the digits.
-/

namespace ScriptHost.Number

open Text

/-! ### Digits -/

/-- The digits of base sixteen in the order of their values. -/
def hexDigits : List Char :=
  ['0', '1', '2', '3', '4', '5', '6', '7', '8', '9', 'a', 'b', 'c', 'd', 'e', 'f']

/-- The value of a digit, small or capital. For a character that is no digit it is sixteen. -/
def digitValue (c : Char) : Nat :=
  hexDigits.idxOf c.toLower

theorem digitValue_of_ge {c : Char} (hc : 128 ≤ c.toNat) : digitValue c = 16 := by
  have hsmall : ∀ d ∈ hexDigits, d.toNat < 128 := by simp [hexDigits]
  have hlower : c.toLower = c := by
    refine dif_neg fun hcapital => ?_
    have hz : c.toNat ≤ 90 := UInt32.le_iff_toNat_le.1 hcapital.2
    omega
  have hnone : c.toLower ∉ hexDigits := by
    intro hmem
    rw [hlower] at hmem
    exact absurd (hsmall c hmem) (Nat.not_lt.2 hc)
  exact List.idxOf_eq_length hnone

theorem digitOf_of_ge {c : Char} (hc : 128 ≤ c.toNat) : digitOf c = none := by
  have habove (d : Char) (hd : d.toNat < 128) : ¬c ≤ d := by
    intro hle
    have hval : c.toNat ≤ d.toNat := UInt32.le_iff_toNat_le.1 hle
    omega
  simp [digitOf, habove '9' (by decide), habove 'z' (by decide), habove 'Z' (by decide)]

/-- The reader knows the digits of base sixteen by their values. -/
theorem digitIn_sixteen (c : Char) :
    digitIn 16 c = if digitValue c < 16 then some (digitValue c) else none := by
  by_cases hc : c.toNat < 128
  · have hall : ∀ k : Fin 128, digitIn 16 (Char.ofNat k) =
        if digitValue (Char.ofNat k) < 16 then some (digitValue (Char.ofNat k)) else none := by
      decide
    have hthis := hall ⟨c.toNat, hc⟩
    simpa only [Char.ofNat_toNat] using hthis
  · have hge := Nat.not_lt.1 hc
    simp [digitIn, digitOf_of_ge hge, digitValue_of_ge hge]

theorem digitIn_eq {base : Nat} (hbase : base ≤ 16) (c : Char) :
    digitIn base c = if digitValue c < base then some (digitValue c) else none := by
  have hsixteen : digitIn base c = (digitIn 16 c).filter (· < base) := by
    simp only [digitIn, Option.filter_filter]
    congr
    funext d
    simp
    omega
  rw [hsixteen, digitIn_sixteen]
  split
  · simp [Option.filter_some]
  · rw [if_neg (by omega)]
    rfl

/-- What holds of the ASCII digits of base sixteen holds of all digits. -/
theorem of_digitValue_lt {P : Char → Prop}
    (hall : ∀ k : Fin 128, digitValue (Char.ofNat k) < 16 → P (Char.ofNat k)) {c : Char}
    (hc : digitValue c < 16) : P c := by
  have hsmall : c.toNat < 128 := by
    by_contra hge
    rw [digitValue_of_ge (Nat.not_lt.1 hge)] at hc
    exact absurd hc (by decide)
  have hthis := hall ⟨c.toNat, hsmall⟩
  simp only [Char.ofNat_toNat] at hthis
  exact hthis hc

theorem isAlphanum_of_digitValue_lt {c : Char} (hc : digitValue c < 16) : c.isAlphanum :=
  of_digitValue_lt (P := fun c => c.isAlphanum = true) (by decide) hc

theorem isDigit_of_digitValue_lt {c : Char} (hc : digitValue c < 10) : c.isDigit :=
  of_digitValue_lt (P := fun c => digitValue c < 10 → c.isDigit = true) (by decide)
    (Nat.lt_trans hc (by decide)) hc

/-- The number that digits spell, the first digit having the greatest weight. -/
def spelled (base : Nat) (digits : List Char) : Nat :=
  Nat.ofDigits base (digits.map digitValue).reverse

@[simp]
theorem spelled_nil (base : Nat) : spelled base [] = 0 := by
  simp [spelled]

@[simp]
theorem spelled_cons (base : Nat) (c : Char) (digits : List Char) :
    spelled base (c :: digits) = digitValue c * base ^ digits.length + spelled base digits := by
  simp [spelled, Nat.ofDigits_append]
  ring

theorem digitsFrom_eq_some_iff {base : Nat} (hbase : base ≤ 16) {cs : List Char} {acc n : Nat} :
    digitsFrom base acc cs = some n ↔
      (∀ c ∈ cs, digitValue c < base) ∧ n = acc * base ^ cs.length + spelled base cs := by
  induction cs generalizing acc with
  | nil => simp [digitsFrom, eq_comm]
  | cons c cs ih =>
    rw [digitsFrom, digitIn_eq hbase]
    by_cases hc : digitValue c < base
    · have hweight : (acc * base + digitValue c) * base ^ cs.length + spelled base cs =
          acc * base ^ (cs.length + 1) +
            (digitValue c * base ^ cs.length + spelled base cs) := by
        ring
      simp [hc, ih, hweight]
    · simp [hc]

theorem digits?_eq_some_iff {base : Nat} (hbase : base ≤ 16) {cs : List Char} {n : Nat} :
    digits? base cs = some n ↔
      cs ≠ [] ∧ (∀ c ∈ cs, digitValue c < base) ∧ n = spelled base cs := by
  cases cs with
  | nil => simp [digits?]
  | cons c cs => simp [digits?, digitsFrom_eq_some_iff hbase]

/-! ### Numerals -/

/-- How the base of a numeral is written. -/
inductive Radix
  | decimal
  | hexadecimal (capital : Bool)
deriving DecidableEq, Repr

namespace Radix

/-- The base. -/
def base : Radix → Nat
  | .decimal => 10
  | .hexadecimal _ => 16

/-- What stands before the digits. -/
def lead : Radix → List Char
  | .decimal => []
  | .hexadecimal false => ['0', 'x']
  | .hexadecimal true => ['0', 'X']

theorem base_le (r : Radix) : r.base ≤ 16 := by
  cases r <;> simp [base]

end Radix

/-- One or more digits of a base. -/
structure Numeral where
  radix : Radix
  digits : List Char
  nonempty : digits ≠ []
  valid : ∀ c ∈ digits, digitValue c < radix.base

namespace Numeral

/-- The text of a numeral. -/
def chars (u : Numeral) : List Char :=
  u.radix.lead ++ u.digits

/-- The number that a numeral spells. -/
def value (u : Numeral) : Nat :=
  spelled u.radix.base u.digits

theorem digitValue_lt {u : Numeral} {c : Char} (hc : c ∈ u.digits) : digitValue c < 16 :=
  Nat.lt_of_lt_of_le (u.valid c hc) u.radix.base_le

theorem isAlphanum_of_mem_chars {u : Numeral} {c : Char} (hc : c ∈ u.chars) : c.isAlphanum := by
  rw [chars, List.mem_append] at hc
  rcases hc with hlead | hdigit
  · have hall : ∀ r : Radix, r.lead.all Char.isAlphanum = true := by
      intro r
      match r with
      | .decimal | .hexadecimal false | .hexadecimal true => rfl
    exact List.all_eq_true.1 (hall u.radix) c hlead
  · exact isAlphanum_of_digitValue_lt (digitValue_lt hdigit)

/-- The numeral that is the decimal text of a number. -/
def ofNat (n : Nat) : Numeral where
  radix := .decimal
  digits := Nat.toDigits 10 n
  nonempty := Nat.toDigits_ne_nil
  valid := ((digits?_eq_some_iff (by decide)).1 (digits?_toDigits n)).2.1

theorem value_ofNat (n : Nat) : (ofNat n).value = n :=
  ((digits?_eq_some_iff (by decide)).1 (digits?_toDigits n)).2.2.symm

end Numeral

/-! ### Signs -/

/-- A sign, or none. -/
inductive Sign
  | missing
  | plus
  | minus
deriving DecidableEq, Repr

namespace Sign

/-- The text of a sign. -/
def chars : Sign → List Char
  | .missing => []
  | .plus => ['+']
  | .minus => ['-']

/-- Whether a sign is a minus. -/
def negative : Sign → Bool
  | .minus => true
  | _ => false

/-- An integer with a sign before it. -/
def apply (s : Sign) (z : Int) : Int :=
  if s.negative then -z else z

end Sign

theorem exists_sign (cs : List Char) :
    ∃ s : Sign, cs = s.chars ++ (splitSign cs).2 ∧ (splitSign cs).1 = s.negative := by
  unfold splitSign
  split
  · exact ⟨.minus, rfl, rfl⟩
  · exact ⟨.plus, rfl, rfl⟩
  · exact ⟨.missing, rfl, rfl⟩

theorem splitSign_chars_append (s : Sign) {c : Char} (hc : digitValue c < 16) (cs : List Char) :
    splitSign (s.chars ++ c :: cs) = (s.negative, c :: cs) := by
  cases s with
  | plus | minus => rfl
  | missing =>
    have hminus : digitValue '-' = 16 := by decide
    have hplus : digitValue '+' = 16 := by decide
    simp only [Sign.chars, List.nil_append]
    unfold splitSign
    split
    · next h =>
      cases h
      omega
    · next h =>
      cases h
      omega
    · rfl

/-! ### Literals -/

/-- The text is a literal of the integer: a sign or none, and then a numeral. -/
def IsLiteral (cs : List Char) (z : Int) : Prop :=
  ∃ (s : Sign) (u : Numeral), cs = s.chars ++ u.chars ∧ z = s.apply u.value

/-- The text is no literal, but it becomes one when a second sign is taken out that stands between the
`0x` and the digits. Both signs count. -/
def SignedTwice (cs : List Char) (v : Int64) : Prop :=
  ∃ (outer inner : Sign) (u : Numeral) (w : Int64), inner ≠ .missing ∧ u.radix ≠ .decimal ∧
    cs = outer.chars ++ (u.radix.lead ++ (inner.chars ++ u.digits)) ∧
    w.toInt = inner.apply u.value ∧ v = if outer.negative then -w else w

theorem word?_eq_some_iff {z : Int} {v : Int64} : word? z = some v ↔ v.toInt = z := by
  constructor
  · intro h
    rw [word?] at h
    split at h
    · next hz =>
      cases h
      exact Int64.toInt_ofInt_of_le (by simpa using hz.1) (by simpa using hz.2)
    · cases h
  · rintro rfl
    exact word?_toInt v

theorem signedField?_eq_bind (base : Nat) (cs : List Char) :
    signedField? base cs = (digits? base (splitSign cs).2).bind fun n =>
      word? (withSign (splitSign cs).1 n) :=
  rfl

theorem integer?_eq_map (cs : List Char) :
    integer? cs = (unsignedLiteral? (splitSign cs).2).map fun w =>
      if (splitSign cs).1 then -w else w :=
  rfl

theorem withSign_negative (s : Sign) (n : Nat) : withSign s.negative n = s.apply n :=
  rfl

/-- A field in base sixteen is digits with or without a sign. -/
theorem signedField?_eq_some_iff {cs : List Char} {w : Int64} :
    signedField? 16 cs = some w ↔ ∃ (s : Sign) (digits : List Char), cs = s.chars ++ digits ∧
      digits ≠ [] ∧ (∀ c ∈ digits, digitValue c < 16) ∧ w.toInt = s.apply (spelled 16 digits) := by
  rw [signedField?_eq_bind, Option.bind_eq_some_iff]
  constructor
  · rintro ⟨n, hdigits, hword⟩
    obtain ⟨s, hcs, hsign⟩ := exists_sign cs
    obtain ⟨hne, hvalid, rfl⟩ := (digits?_eq_some_iff (by decide)).1 hdigits
    rw [hsign, withSign_negative, word?_eq_some_iff] at hword
    exact ⟨s, _, hcs, hne, hvalid, hword⟩
  · rintro ⟨s, digits, rfl, hne, hvalid, hw⟩
    obtain ⟨c, cs, rfl⟩ := List.exists_cons_of_ne_nil hne
    have hsplit := splitSign_chars_append s (hvalid c (by simp)) cs
    refine ⟨spelled 16 (c :: cs), ?_, ?_⟩
    · rw [hsplit]
      exact (digits?_eq_some_iff (by decide)).2 ⟨hne, hvalid, rfl⟩
    · rw [hsplit, withSign_negative, word?_eq_some_iff]
      exact hw

/-- The numeral after a sign may have a sign of its own behind the `0x`. -/
theorem unsignedLiteral?_eq_some_iff {cs : List Char} {w : Int64} :
    unsignedLiteral? cs = some w ↔ ∃ (s : Sign) (u : Numeral), (u.radix = .decimal → s = .missing) ∧
      cs = u.radix.lead ++ (s.chars ++ u.digits) ∧ w.toInt = s.apply u.value := by
  constructor
  · intro h
    unfold unsignedLiteral? at h
    split at h
    · obtain ⟨s, digits, rfl, hne, hvalid, hw⟩ := signedField?_eq_some_iff.1 h
      exact ⟨s, ⟨.hexadecimal false, digits, hne, hvalid⟩, nofun, rfl, hw⟩
    · obtain ⟨s, digits, rfl, hne, hvalid, hw⟩ := signedField?_eq_some_iff.1 h
      exact ⟨s, ⟨.hexadecimal true, digits, hne, hvalid⟩, nofun, rfl, hw⟩
    · obtain ⟨n, hdigits, hword⟩ := Option.bind_eq_some_iff.1 h
      obtain ⟨hne, hvalid, rfl⟩ := (digits?_eq_some_iff (by decide)).1 hdigits
      rw [word?_eq_some_iff] at hword
      exact ⟨.missing, ⟨.decimal, cs, hne, hvalid⟩, fun _ => rfl, rfl, hword⟩
  · rintro ⟨s, ⟨radix, digits, hne, hvalid⟩, hs, rfl, hw⟩
    cases radix with
    | hexadecimal capital =>
      have hfield := signedField?_eq_some_iff.2 ⟨s, digits, rfl, hne, hvalid, hw⟩
      cases capital <;> exact hfield
    | decimal =>
      obtain rfl := hs rfl
      have hdigits : digits? 10 digits = some (spelled 10 digits) :=
        (digits?_eq_some_iff (by decide)).2 ⟨hne, hvalid, rfl⟩
      have hcs : Radix.decimal.lead ++ (Sign.missing.chars ++ digits) = digits := rfl
      have hx : digitValue 'x' = 16 ∧ digitValue 'X' = 16 := by decide
      rw [hcs]
      unfold unsignedLiteral?
      split
      · have := hvalid 'x' (by simp)
        simp [hx.1, Radix.base] at this
      · have := hvalid 'X' (by simp)
        simp [hx.2, Radix.base] at this
      · rw [hdigits, Option.bind_some, word?_eq_some_iff]
        exact hw

theorem exists_cons_of_numeral (s : Sign) (u : Numeral) (hs : u.radix = .decimal → s = .missing) :
    ∃ c cs, u.radix.lead ++ (s.chars ++ u.digits) = c :: cs ∧ digitValue c < 10 := by
  obtain ⟨c, cs, hcs⟩ := List.exists_cons_of_ne_nil u.nonempty
  cases hradix : u.radix with
  | decimal =>
    have hc := u.valid c (by simp [hcs])
    rw [hradix] at hc
    refine ⟨c, cs, ?_, hc⟩
    rw [hs hradix, hcs]
    rfl
  | hexadecimal capital =>
    have hzero : digitValue '0' < 10 := by decide
    cases capital <;> exact ⟨'0', _, rfl, hzero⟩

theorem Numeral.exists_chars_eq_cons (u : Numeral) :
    ∃ c cs, u.chars = c :: cs ∧ digitValue c < 10 :=
  exists_cons_of_numeral .missing u fun _ => rfl

theorem integer?_eq_some_iff_exists {cs : List Char} {v : Int64} :
    integer? cs = some v ↔ ∃ (outer inner : Sign) (u : Numeral) (w : Int64),
      (u.radix = .decimal → inner = .missing) ∧
      cs = outer.chars ++ (u.radix.lead ++ (inner.chars ++ u.digits)) ∧
      w.toInt = inner.apply u.value ∧ v = if outer.negative then -w else w := by
  rw [integer?_eq_map, Option.map_eq_some_iff]
  constructor
  · rintro ⟨w, hunsigned, rfl⟩
    obtain ⟨outer, hcs, hsign⟩ := exists_sign cs
    obtain ⟨inner, u, hinner, hrest, hw⟩ := unsignedLiteral?_eq_some_iff.1 hunsigned
    rw [hrest] at hcs
    exact ⟨outer, inner, u, w, hinner, hcs, hw, by rw [hsign]⟩
  · rintro ⟨outer, inner, u, w, hinner, rfl, hw, rfl⟩
    obtain ⟨c, cs, hcs, hc⟩ := exists_cons_of_numeral inner u hinner
    have hsplit := splitSign_chars_append outer (Nat.lt_trans hc (by decide)) cs
    refine ⟨w, ?_, ?_⟩
    · rw [hcs, hsplit, ← hcs]
      exact unsignedLiteral?_eq_some_iff.2 ⟨inner, u, hinner, rfl, hw⟩
    · rw [hcs, hsplit]

theorem toInt_neg_of_nonneg {w : Int64} (hw : 0 ≤ w.toInt) : (-w).toInt = -w.toInt := by
  have hlt := w.toInt_lt
  rw [Int64.toInt_neg, Int.bmod_eq_of_le] <;> omega

/-- A text is read as an integer other than the least word if it is a literal of this integer. What is
read besides has two signs. -/
theorem integer?_eq_some_iff {cs : List Char} {v : Int64} :
    integer? cs = some v ↔
      (IsLiteral cs v.toInt ∧ v ≠ Int64.minValue) ∨ SignedTwice cs v := by
  rw [integer?_eq_some_iff_exists]
  constructor
  · rintro ⟨outer, inner, u, w, hinner, rfl, hw, rfl⟩
    by_cases hmissing : inner = .missing
    · subst hmissing
      have hvalue : w.toInt = u.value := hw
      have hnonneg : 0 ≤ w.toInt := hvalue ▸ Int.natCast_nonneg _
      have hlt := w.toInt_lt
      have hv : (if outer.negative then -w else w).toInt = outer.apply u.value := by
        rw [Sign.apply, ← hvalue]
        split
        · exact toInt_neg_of_nonneg hnonneg
        · rfl
      refine .inl ⟨⟨outer, u, rfl, hv⟩, ?_⟩
      intro hleast
      have hmin : Int64.minValue.toInt = -2 ^ 63 := rfl
      rw [hleast, hmin, Sign.apply] at hv
      split at hv <;> omega
    · refine .inr ⟨outer, inner, u, w, hmissing, ?_, rfl, hw, rfl⟩
      intro hdecimal
      exact hmissing (hinner hdecimal)
  · rintro (⟨⟨s, u, rfl, hv⟩, hleast⟩ | ⟨outer, inner, u, w, -, hradix, rfl, hw, rfl⟩)
    · have hlow := v.le_toInt
      have hhigh := v.toInt_lt
      have hmin : v.toInt ≠ -2 ^ 63 := fun h => hleast (Int64.toInt_inj.1 h)
      have hsmall : (u.value : Int) < 2 ^ 63 := by
        rw [Sign.apply] at hv
        split at hv <;> omega
      have hword : (Int64.ofInt u.value).toInt = u.value := by
        rw [Int64.toInt_ofInt_of_le] <;> omega
      refine ⟨s, .missing, u, Int64.ofInt u.value, fun _ => rfl, rfl, hword, ?_⟩
      rw [← Int64.toInt_inj, hv, Sign.apply]
      split
      · rw [toInt_neg_of_nonneg (by omega), hword]
      · exact hword.symm
    · exact ⟨outer, inner, u, w, fun hdecimal => absurd hdecimal hradix, rfl, hw, rfl⟩

/-- A sign does not stand within a numeral. -/
theorem SignedTwice.not_isLiteral {cs : List Char} {v : Int64} (h : SignedTwice cs v) (z : Int) :
    ¬IsLiteral cs z := by
  rintro ⟨s, u, hcs, -⟩
  obtain ⟨outer, inner, u', w, hinner, hradix, hcs', -⟩ := h
  obtain ⟨c, rest, hrest, hc⟩ := u.exists_chars_eq_cons
  obtain ⟨c', rest', hrest', hc'⟩ :=
    exists_cons_of_numeral inner u' fun hdecimal => absurd hdecimal hradix
  have hsame : u'.radix.lead ++ (inner.chars ++ u'.digits) = u.chars := by
    have hsplit := splitSign_chars_append s (Nat.lt_trans hc (by decide)) rest
    have hsplit' := splitSign_chars_append outer (Nat.lt_trans hc' (by decide)) rest'
    rw [← hrest, ← hcs] at hsplit
    rw [← hrest', ← hcs', hsplit] at hsplit'
    exact (congrArg Prod.snd hsplit').symm
  have hmem : ∀ d ∈ inner.chars, d.isAlphanum = true := by
    intro d hd
    apply u.isAlphanum_of_mem_chars
    rw [← hsame]
    simp [hd]
  cases inner with
  | missing => exact hinner rfl
  | plus => exact absurd (hmem '+' (by simp [Sign.chars])) (by decide)
  | minus => exact absurd (hmem '-' (by simp [Sign.chars])) (by decide)

/-! ### Decimal texts of words -/

/-- The text of a word is a minus if the word is negative, and then its magnitude. -/
theorem exists_toList_integerText (n : Int64) : ∃ s : Sign,
    (integerText n).toList = s.chars ++ (Numeral.ofNat n.toInt.natAbs).chars ∧
      n.toInt = s.apply n.toInt.natAbs := by
  rw [integerText]
  cases n.toInt with
  | ofNat k =>
    have htext : (toString (Int.ofNat k)).toList = Nat.toDigits 10 k := Nat.toList_repr
    exact ⟨.missing, htext, rfl⟩
  | negSucc k =>
    have htext : (toString (Int.negSucc k)).toList = '-' :: Nat.toDigits 10 (k + 1) := by
      show ("-" ++ (k + 1).repr).toList = _
      rw [String.toList_append, Nat.toList_repr]
      rfl
    exact ⟨.minus, htext, rfl⟩

theorem isLiteral_integerText (n : Int64) : IsLiteral (integerText n).toList n.toInt := by
  obtain ⟨s, htext, hvalue⟩ := exists_toList_integerText n
  refine ⟨s, Numeral.ofNat n.toInt.natAbs, htext, ?_⟩
  rw [Numeral.value_ofNat]
  exact hvalue

/-- Every word but the least one is read back from its decimal text. -/
theorem integer?_integerText {n : Int64} (hn : n ≠ Int64.minValue) :
    integer? (integerText n).toList = some n :=
  integer?_eq_some_iff.2 (.inl ⟨isLiteral_integerText n, hn⟩)

/-- The magnitude of the least word is no word. -/
theorem integer?_integerText_minValue : integer? (integerText Int64.minValue).toList = none := by
  decide

theorem isBlank_of_mem_integerText {n : Int64} {c : Char} (hc : c ∈ (integerText n).toList) :
    isBlank c = false := by
  obtain ⟨s, htext, -⟩ := exists_toList_integerText n
  rw [htext, List.mem_append] at hc
  rcases hc with hsign | hdigit
  · have hany : s.chars.any isBlank = false := by
      cases s <;> rfl
    exact Bool.eq_false_iff.2 (List.any_eq_false.1 hany c hsign)
  · exact isBlank_of_isDigit (isDigit_of_mem_toDigits hdigit)

theorem trimBlanks_integerText (n : Int64) :
    trimBlanks (integerText n).toList = (integerText n).toList :=
  trimBlanks_of_forall fun _ hc => isBlank_of_mem_integerText hc

/-- The reader of integers takes the literals of all integers but the least word, each for the integer
that it denotes, and besides the texts with a second sign between `0x` and the digits, which are no
literals. -/
theorem integer?_exact (cs : List Char) (v : Int64) :
    (integer? cs = some v ↔
      (IsLiteral cs v.toInt ∧ v ≠ Int64.minValue) ∨ SignedTwice cs v) ∧
    ¬(IsLiteral cs v.toInt ∧ SignedTwice cs v) := by
  constructor
  · exact integer?_eq_some_iff
  · rintro ⟨hliteral, htwice⟩
    exact htwice.not_isLiteral v.toInt hliteral

/-- A minus between `0x` and the digits is no part of any literal, but it is read. -/
theorem integer?_minus_behind_lead :
    integer? "0x-5".toList = some (-5) ∧ ∀ z, ¬IsLiteral "0x-5".toList z := by
  have htwice : SignedTwice "0x-5".toList (-5) :=
    ⟨.missing, .minus, ⟨.hexadecimal false, ['5'], by simp, by simp; decide⟩, -5, by decide, by decide,
      by decide, by decide, by decide⟩
  exact ⟨by decide, htwice.not_isLiteral⟩

end ScriptHost.Number
