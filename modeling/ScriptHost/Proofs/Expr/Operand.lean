import ScriptHost.Proofs.Expr.Reading
import ScriptHost.Proofs.Number.Numeral

/-!
# Numerals as operands

The reader of numbers takes in letters, digits and points, and a sign where it takes an `e` before it for
the beginning of an exponent. So a numeral is read to its end, and nothing behind it is taken in if it does
not look like more of a number. Only numerals that begin with `0x` are known to have no exponent.
-/

namespace ScriptHost

open Text Number

namespace Expr

/-! ### Runs of characters -/

/-- Whether a number goes on with a character that stands behind another one. -/
def continuesNumber (hex : Bool) (previous c : Char) : Bool :=
  c.isAlphanum || c = '.' ||
    ((c = '+' || c = '-') && (previous = 'e' || previous = 'E') && !hex)

variable {hex : Bool} {previous : Char} {cs rest : List Char}

theorem numberRun_cons (c : Char) :
    numberRun hex previous (c :: rest) =
      if continuesNumber hex previous c then
        (c :: (numberRun hex c rest).1, (numberRun hex c rest).2)
      else ([], c :: rest) :=
  rfl

/-- Letters and digits are taken in, and the last of them decides on what follows. -/
theorem numberRun_append_of_isAlphanum (hcs : ∀ c ∈ cs, c.isAlphanum) :
    numberRun hex previous (cs ++ rest) =
      (cs ++ (numberRun hex (cs.getLastD previous) rest).1,
        (numberRun hex (cs.getLastD previous) rest).2) := by
  induction cs generalizing previous with
  | nil => simp
  | cons c cs ih =>
    simp only [List.mem_cons, forall_eq_or_imp] at hcs
    have hcontinues : continuesNumber hex previous c = true := by
      simp [continuesNumber, hcs.1]
    simp only [List.cons_append, numberRun_cons, hcontinues, if_true, List.getLastD_cons]
    rw [ih hcs.2]

theorem numberRun_of_stops (h : ∀ c ∈ rest.head?, continuesNumber hex previous c = false) :
    numberRun hex previous rest = ([], rest) := by
  cases rest with
  | nil => rfl
  | cons c rest =>
    rw [numberRun_cons, h c rfl]
    rfl

/-! ### Numerals -/

end Expr

namespace Number.Numeral

/-- The numeral looks as if an exponent began at its end: it begins with `0X` and its last digit is
an `e`. -/
def EndsInExponent (u : Numeral) : Prop :=
  u.radix = .hexadecimal true ∧
    (u.digits.getLast u.nonempty = 'e' ∨ u.digits.getLast u.nonempty = 'E')

/-- What follows the numeral does not look like more of a number. -/
def EndsBefore (u : Numeral) (rest : List Char) : Prop :=
  ∀ c ∈ rest.head?, c.isAlphanum = false ∧ c ≠ '.' ∧ (c = '+' ∨ c = '-' → ¬u.EndsInExponent)

end Number.Numeral

namespace Expr

variable {u : Numeral}

theorem getLastD_chars (u : Numeral) (c : Char) :
    u.chars.getLastD c = u.digits.getLast u.nonempty := by
  rw [Numeral.chars, List.getLastD_eq_getLast?, List.getLast?_append,
    List.getLast?_eq_some_getLast u.nonempty]
  rfl

/-- Only numerals that begin with `0x` are marked as such. -/
theorem isSome_afterToken_lead (h : u.radix = .hexadecimal false) (rest : List Char) :
    (afterToken ['0', 'x'] (u.chars ++ rest)).isSome = true := by
  rw [Numeral.chars, h]
  rfl

theorem not_continuesNumber (h : u.EndsBefore rest) {c : Char} (hc : c ∈ rest.head?) :
    continuesNumber (afterToken ['0', 'x'] (u.chars ++ rest)).isSome
      (u.digits.getLast u.nonempty) c = false := by
  obtain ⟨halnum, hpoint, hsign⟩ := h c hc
  rw [continuesNumber, halnum, decide_eq_false hpoint]
  by_cases hplus : c = '+' ∨ c = '-'
  · by_cases hlast : u.digits.getLast u.nonempty = 'e' ∨ u.digits.getLast u.nonempty = 'E'
    · -- the numeral has a digit `e` and does not begin with `0X`
      have hradix : u.radix = .hexadecimal false := by
        have hvalid := u.valid _ (List.getLast_mem u.nonempty)
        match hu : u.radix with
        | .hexadecimal false => rfl
        | .hexadecimal true => exact absurd ⟨hu, hlast⟩ (hsign hplus)
        | .decimal =>
          have he : digitValue 'e' = 14 ∧ digitValue 'E' = 14 := by decide
          rw [hu, Radix.base] at hvalid
          rcases hlast with hlast | hlast <;> rw [hlast] at hvalid <;> omega
      rw [isSome_afterToken_lead hradix]
      simp
    · simp [not_or.1 hlast]
  · simp [not_or.1 hplus]

theorem ofText_chars (hu : u.value < 2 ^ 63) :
    Value.ofText (String.ofList u.chars) = .int (Int64.ofNat u.value) := by
  have hword : (Int64.ofNat u.value).toInt = u.value := Int64.toInt_ofNat_of_lt hu
  have hread : integer? u.chars = some (Int64.ofNat u.value) := by
    refine integer?_eq_some_iff.2 (.inl ⟨⟨.missing, u, rfl, hword⟩, ?_⟩)
    intro hleast
    rw [hleast] at hword
    have hmin : Int64.minValue.toInt = -2 ^ 63 := rfl
    omega
  have htrim : trimBlanks u.chars = u.chars := trimBlanks_of_forall fun c hc =>
    isBlank_of_isAlphanum (u.isAlphanum_of_mem_chars hc)
  simp only [Value.ofText, String.toList_ofList, htrim, hread]

/-- A numeral is read to its end where nothing follows that looks like more of a number. -/
theorem number_chars_append (hu : u.value < 2 ^ 63) (h : u.EndsBefore rest) :
    number (u.chars ++ rest) = .ok (.literal (.int (Int64.ofNat u.value)), rest) := by
  have hrun : numberRun (afterToken ['0', 'x'] (u.chars ++ rest)).isSome '\x00' (u.chars ++ rest) =
      (u.chars, rest) := by
    rw [numberRun_append_of_isAlphanum fun c hc => u.isAlphanum_of_mem_chars hc, getLastD_chars,
      numberRun_of_stops fun c hc => not_continuesNumber h hc]
    simp
  simp only [number, hrun, ofText_chars hu]

/-! ### Operands -/

variable {depth : Nat}

theorem operand_of_isDigit {c : Char} (hc : c.isDigit) (cs : List Char) :
    operand (depth + 1) (c :: cs) = number (c :: cs) := by
  have hblank := isBlank_of_isDigit hc
  have hsign : c ≠ '-' ∧ c ≠ '+' ∧ c ≠ '!' :=
    of_isDigit (P := fun c => c ≠ '-' ∧ c ≠ '+' ∧ c ≠ '!') (by decide) hc
  have hother : c ≠ '(' ∧ c ≠ '$' ∧ c ≠ '[' ∧ c ≠ '"' ∧ c ≠ '{' :=
    of_isDigit (P := fun c => c ≠ '(' ∧ c ≠ '$' ∧ c ≠ '[' ∧ c ≠ '"' ∧ c ≠ '{') (by decide) hc
  rw [operand, findOperator_unary_of_ne hblank hsign]
  dsimp only
  rw [primary, List.dropWhile_cons_of_neg (by simp [hblank])]
  dsimp only
  rw [if_neg hother.1, if_neg hother.2.1, if_neg hother.2.2.1, if_neg hother.2.2.2.1,
    if_neg hother.2.2.2.2, if_pos (by simp [hc])]

theorem operand_chars_append (u : Numeral) (rest : List Char) :
    operand (depth + 1) (u.chars ++ rest) = number (u.chars ++ rest) := by
  obtain ⟨c, cs, hcs, hc⟩ := u.exists_chars_eq_cons
  rw [hcs, List.cons_append]
  exact operand_of_isDigit (isDigit_of_digitValue_lt hc) _

end Expr

end ScriptHost
