import ScriptHost.Proofs.Expr.RoundTrip

/-!
# White space around operators

An operator that is written with symbols may stand right between two numerals: the expression is the same
as with white space on either side of it. The one exception is a plus or a minus behind a numeral that
begins with `0X` and ends in the digit `e`. It is taken for the sign of an exponent, and there is no such
number.
-/

namespace ScriptHost.Expr

open Text Number

/-! ### Operators -/

/-- An operator between two operands that is written with symbols. -/
inductive Joint
  | binary (op : BinaryOp) (hop : op ≠ .textEq ∧ op ≠ .textNe)
  | both
  | either

namespace Joint

/-- How an operator is written. -/
def symbol : Joint → String
  | .binary op _ => op.symbol
  | .both => "&&"
  | .either => "||"

/-- The expression that an operator makes of its operands. -/
def build : Joint → Expr → Expr → Expr
  | .binary op _ => .binary op
  | .both => .both
  | .either => .either

/-- The level of an operator. -/
def level : Joint → Nat
  | .binary op _ => op.level
  | .both => 4
  | .either => 5

/-- The operator may be taken for the sign of an exponent. -/
def IsSign (joint : Joint) : Prop :=
  joint.symbol = "+" ∨ joint.symbol = "-"

instance (joint : Joint) : Decidable joint.IsSign :=
  inferInstanceAs (Decidable (_ ∨ _))

theorem level_lt (joint : Joint) : joint.level < levels.length := by
  match joint with
  | .binary op _ => exact op.level_lt
  | .both | .either => decide

variable {cs : List Char}

/-- No tighter level takes the operator for one of its own. -/
theorem findOperator_of_lt (joint : Joint) {j : Nat} (hj : j < joint.level) :
    findOperator (levelAt j) (joint.symbol.toList ++ cs) = none := by
  match joint with
  | .binary op hop =>
    dsimp only [level] at hj
    dsimp only [symbol]
    cases op
    all_goals
      dsimp only [BinaryOp.level] at hj
      try interval_cases j
    case textEq => exact absurd rfl hop.1
    case textNe => exact absurd rfl hop.2
    all_goals rfl
  | .both | .either =>
    dsimp only [level] at hj
    dsimp only [symbol]
    interval_cases j
    all_goals rfl

theorem afterToken_equals (hcs : ∀ c ∈ cs.head?, c ≠ '=') : afterToken ['='] cs = none := by
  cases cs with
  | nil => rfl
  | cons c cs => rw [afterToken, if_neg (hcs c rfl).symm]

theorem eat_of_afterToken_none {token : String}
    (h : afterToken token.toList (cs.dropWhile isBlank) = none) : eat token cs = none := by
  rw [eat, h]

theorem findOperator_level (joint : Joint) (hcs : ∀ c ∈ cs.head?, c ≠ '=') :
    findOperator (levelAt joint.level) (joint.symbol.toList ++ cs) = some (joint.build, cs) := by
  match joint with
  | .both | .either => rfl
  | .binary op hop =>
    dsimp only [symbol, level, build]
    cases op with
    | lt =>
      have hle : eat "<=" ('<' :: cs) = none := eat_of_afterToken_none (afterToken_equals hcs)
      have hge : eat ">=" ('<' :: cs) = none := rfl
      have hlt : eat "<" ('<' :: cs) = some cs := rfl
      have hsymbol : BinaryOp.lt.symbol.toList ++ cs = '<' :: cs := rfl
      simp [hsymbol, findOperator, levelAt, levels, BinaryOp.level, hle, hge, hlt]
    | gt =>
      have hle : eat "<=" ('>' :: cs) = none := rfl
      have hge : eat ">=" ('>' :: cs) = none := eat_of_afterToken_none (afterToken_equals hcs)
      have hlt : eat "<" ('>' :: cs) = none := rfl
      have hgt : eat ">" ('>' :: cs) = some cs := rfl
      have hsymbol : BinaryOp.gt.symbol.toList ++ cs = '>' :: cs := rfl
      simp [hsymbol, findOperator, levelAt, levels, BinaryOp.level, hle, hge, hlt, hgt]
    | textEq => exact absurd rfl hop.1
    | textNe => exact absurd rfl hop.2
    | _ => rfl

/-- No operator looks like more of a number, except for the signs of exponents. -/
theorem head_symbol (joint : Joint) : ∀ c ∈ joint.symbol.toList.head?,
    c.isAlphanum = false ∧ c ≠ '.' ∧ (c = '+' ∨ c = '-' → joint.IsSign) := by
  unfold IsSign
  match joint with
  | .both | .either =>
    rintro c ⟨⟩
    decide
  | .binary op hop =>
    dsimp only [symbol]
    cases op with
    | textEq => exact absurd rfl hop.1
    | textNe => exact absurd rfl hop.2
    | _ =>
      rintro c ⟨⟩
      decide

theorem symbol_ne_nil (joint : Joint) : joint.symbol.toList ≠ [] := by
  match joint with
  | .both | .either => decide
  | .binary op _ =>
    dsimp only [symbol]
    cases op <;> decide

end Joint

variable {k m depth : Nat} {gap before after cs rest rest' : List Char} {e l r : Expr}
  {build : Expr → Expr → Expr} {error : SyntaxError} {read : Reader Expr}

/-! ### Levels -/

theorem findOperator_nil (k : Nat) : findOperator (levelAt k) [] = none :=
  (ends_nil (k + 1)).operators k (Nat.lt_succ_self k)

/-- Levels that have no operator for what follows leave an expression as it is. -/
theorem joinedUpTo_carry (hread : joinedUpTo read k cs = .ok (e, rest)) (hkm : k ≤ m)
    (hnone : ∀ j, k ≤ j → j < m → findOperator (levelAt j) rest = none) :
    joinedUpTo read m cs = .ok (e, rest) := by
  induction hkm with
  | refl => exact hread
  | @step m hkm ih =>
    have hm : joinedUpTo read m cs = .ok (e, rest) :=
      ih fun j hkj hjm => hnone j hkj (Nat.lt_succ_of_lt hjm)
    rw [joinedUpTo, leftAssoc, hm]
    exact chain_of_none (hnone m hkm (Nat.lt_succ_self m)) _

/-- An operator between two operands of tighter levels. -/
theorem joinedUpTo_join (hleft : joinedUpTo read k cs = .ok (l, rest))
    (hfind : findOperator (levelAt k) rest = some (build, rest'))
    (hright : joinedUpTo read k rest' = .ok (r, [])) :
    joinedUpTo read (k + 1) cs = .ok (build l r, []) := by
  have hnone := findOperator_nil k
  cases rest with
  | nil => exact absurd (hfind.symm.trans hnone) (by simp)
  | cons c rest =>
    rw [joinedUpTo, leftAssoc, hleft]
    dsimp only [List.length_cons]
    rw [chain, hfind]
    dsimp only
    rw [hright]
    exact chain_of_none hnone _

theorem joinedUpTo_of_error (hread : read cs = .error error) (k : Nat) :
    joinedUpTo read k cs = .error error := by
  induction k with
  | zero => exact hread
  | succ k ih => rw [joinedUpTo, leftAssoc, ih]

/-- A text is an expression if the operators between two operands join all of it. -/
theorem parse_of_joined {source : String}
    (hread : joined (operand (source.toList.length + 1)) source.toList = .ok (e, [])) :
    parse source = .ok e := by
  have hquestion : eat "?" [] = none := rfl
  unfold parse
  dsimp only
  rw [choices, hread]
  dsimp only
  rw [hquestion]
  rfl

theorem parse_of_operand_error {source : String}
    (hread : operand (source.toList.length + 1) source.toList = .error error) :
    parse source = .error error := by
  unfold parse
  dsimp only
  rw [choices, joined_eq_joinedUpTo, joinedUpTo_of_error hread]

/-! ### White space -/

/-- The characters are white space. -/
def Blank (gap : List Char) : Prop :=
  ∀ c ∈ gap, isBlank c = true

theorem Blank.dropWhile_append (hgap : Blank gap) (cs : List Char) :
    (gap ++ cs).dropWhile isBlank = cs.dropWhile isBlank :=
  List.dropWhile_append_of_pos hgap

theorem Blank.findOperator_append {α : Type} (hgap : Blank gap) (operators : List (String × α))
    (cs : List Char) : findOperator operators (gap ++ cs) = findOperator operators cs := by
  simp only [findOperator, eat, hgap.dropWhile_append]

theorem Blank.operand_append (hgap : Blank gap) (depth : Nat) (cs : List Char) :
    operand depth (gap ++ cs) = operand depth cs := by
  cases depth with
  | zero => rfl
  | succ depth => rw [operand, operand, hgap.findOperator_append, primary, primary, hgap.dropWhile_append]

/-- White space is no part of a number and of no operator. -/
theorem of_isBlank {c : Char} (hc : isBlank c = true) :
    c.isAlphanum = false ∧ c ≠ '.' ∧ c ≠ '+' ∧ c ≠ '-' ∧ c ≠ '=' := by
  refine ⟨?_, ?_, ?_, ?_, ?_⟩
  · by_contra halnum
    rw [Bool.not_eq_false] at halnum
    rw [isBlank_of_isAlphanum halnum] at hc
    cases hc
  all_goals
    rintro rfl
    exact absurd hc (by decide)

/-! ### Numerals with an operator between them -/

/-- The expression that a numeral is. -/
def ofNumeral (u : Numeral) : Expr :=
  .literal (.int (Int64.ofNat u.value))

variable {u v : Numeral}

theorem operand_numeral (hu : u.value < 2 ^ 63) (hrest : u.EndsBefore rest) (depth : Nat) :
    operand (depth + 1) (u.chars ++ rest) = .ok (ofNumeral u, rest) := by
  rw [operand_chars_append, number_chars_append hu hrest]
  rfl

/-- An operator ends the numeral before it if it is not taken for the sign of an exponent. -/
theorem endsBefore_joint {joint : Joint} (hbefore : Blank before)
    (hsign : before = [] → ¬(u.EndsInExponent ∧ joint.IsSign)) (cs : List Char) :
    u.EndsBefore (before ++ (joint.symbol.toList ++ cs)) := by
  cases before with
  | nil =>
    obtain ⟨d, ds, hsymbol⟩ := List.exists_cons_of_ne_nil joint.symbol_ne_nil
    have hhead := joint.head_symbol
    rw [hsymbol] at hhead ⊢
    rintro c ⟨⟩
    obtain ⟨halnum, hpoint, hplus⟩ := hhead d rfl
    exact ⟨halnum, hpoint, fun hd hexponent => hsign rfl ⟨hexponent, hplus hd⟩⟩
  | cons d before =>
    rintro c ⟨⟩
    obtain ⟨halnum, hpoint, hplus, hminus, -⟩ := of_isBlank (hbefore d List.mem_cons_self)
    refine ⟨halnum, hpoint, ?_⟩
    rintro (hd | hd)
    · exact absurd hd hplus
    · exact absurd hd hminus

theorem ne_equals_of_head (hafter : Blank after) {c : Char} (hc : c ∈ (after ++ v.chars).head?) :
    c ≠ '=' := by
  have hmem := List.mem_of_mem_head? hc
  rcases List.mem_append.1 hmem with hblank | hchar
  · exact (of_isBlank (hafter c hblank)).2.2.2.2
  · rintro rfl
    exact absurd (v.isAlphanum_of_mem_chars hchar) (by decide)

theorem joined_numerals (hu : u.value < 2 ^ 63) (hv : v.value < 2 ^ 63) (joint : Joint)
    (hbefore : Blank before) (hafter : Blank after)
    (hends : u.EndsBefore (before ++ (joint.symbol.toList ++ (after ++ v.chars)))) (depth : Nat) :
    joined (operand (depth + 1)) (u.chars ++ (before ++ (joint.symbol.toList ++ (after ++ v.chars)))) =
      .ok (joint.build (ofNumeral u) (ofNumeral v), []) := by
  have hleft : joinedUpTo (operand (depth + 1)) joint.level
      (u.chars ++ (before ++ (joint.symbol.toList ++ (after ++ v.chars)))) =
      .ok (ofNumeral u, before ++ (joint.symbol.toList ++ (after ++ v.chars))) := by
    refine joinedUpTo_carry (k := 0) (operand_numeral hu hends depth) (Nat.zero_le _) ?_
    intro j _ hj
    rw [hbefore.findOperator_append]
    exact joint.findOperator_of_lt hj
  have hfind : findOperator (levelAt joint.level)
      (before ++ (joint.symbol.toList ++ (after ++ v.chars))) = some (joint.build, after ++ v.chars) := by
    rw [hbefore.findOperator_append]
    exact joint.findOperator_level fun c hc => ne_equals_of_head hafter hc
  have hright : joinedUpTo (operand (depth + 1)) joint.level (after ++ v.chars) =
      .ok (ofNumeral v, []) := by
    refine joinedUpTo_carry (k := 0) ?_ (Nat.zero_le _) fun j _ _ => ?_
    · have hlast : v.EndsBefore [] := nofun
      have hread := operand_numeral hv hlast depth
      rw [List.append_nil] at hread
      rw [joinedUpTo, hafter.operand_append, hread]
    · exact findOperator_nil j
  rw [joined_eq_joinedUpTo]
  refine joinedUpTo_carry (joinedUpTo_join hleft hfind hright) joint.level_lt fun j _ _ => ?_
  exact findOperator_nil j

/-- White space of any kind around an operator is passed over. -/
theorem parse_numerals (hu : u.value < 2 ^ 63) (hv : v.value < 2 ^ 63) (joint : Joint)
    (hbefore : Blank before) (hafter : Blank after)
    (hsign : before = [] → ¬(u.EndsInExponent ∧ joint.IsSign)) {source : String}
    (hsource : source.toList =
      u.chars ++ (before ++ (joint.symbol.toList ++ (after ++ v.chars)))) :
    parse source = .ok (joint.build (ofNumeral u) (ofNumeral v)) := by
  apply parse_of_joined
  rw [hsource]
  exact joined_numerals hu hv joint hbefore hafter (endsBefore_joint hbefore hsign _) _

/-! ### Signs of exponents -/

/-- A numeral in base sixteen, a sign and another numeral are no number. -/
theorem ofText_of_endsInExponent (hexponent : u.EndsInExponent) {sign : Char}
    (hsign : sign = '+' ∨ sign = '-') (v : Numeral) :
    Value.ofText (String.ofList (u.chars ++ sign :: v.chars)) =
      .text (String.ofList (u.chars ++ sign :: v.chars)) := by
  obtain ⟨c, cs, hcs⟩ := List.exists_cons_of_ne_nil u.nonempty
  have hc : digitValue c < 16 := u.digitValue_lt (by simp [hcs])
  have hchars : u.chars ++ sign :: v.chars = '0' :: 'X' :: (c :: (cs ++ sign :: v.chars)) := by
    rw [Numeral.chars, hexponent.1, hcs]
    rfl
  have htrim : trimBlanks (u.chars ++ sign :: v.chars) = u.chars ++ sign :: v.chars := by
    apply trimBlanks_of_forall
    intro d hd
    rcases List.mem_append.1 hd with hd | hd
    · exact isBlank_of_isAlphanum (u.isAlphanum_of_mem_chars hd)
    rcases List.mem_cons.1 hd with rfl | hd
    · rcases hsign with rfl | rfl <;> decide
    · exact isBlank_of_isAlphanum (v.isAlphanum_of_mem_chars hd)
  have hdigits : digits? 16 (c :: (cs ++ sign :: v.chars)) = none := by
    rw [Option.eq_none_iff_forall_ne_some]
    intro n hn
    have hvalid := ((digits?_eq_some_iff (by decide)).1 hn).2.1 sign (by simp)
    have hvalue : digitValue '+' = 16 ∧ digitValue '-' = 16 := by decide
    rcases hsign with rfl | rfl <;> omega
  have hinteger : integer? ('0' :: 'X' :: (c :: (cs ++ sign :: v.chars))) = none := by
    have hsplit := splitSign_chars_append .missing hc (cs ++ sign :: v.chars)
    have hfield : signedField? 16 (c :: (cs ++ sign :: v.chars)) = none := by
      rw [Sign.chars, List.nil_append] at hsplit
      rw [signedField?_eq_bind, hsplit, hdigits]
      rfl
    show (signedField? 16 (c :: (cs ++ sign :: v.chars))).map _ = none
    rw [hfield]
    rfl
  have hreal : real? ('0' :: 'X' :: (c :: (cs ++ sign :: v.chars))) = none := rfl
  simp only [Value.ofText, String.toList_ofList, htrim]
  rw [hchars, hinteger]
  dsimp only
  rw [hreal]
  simp

theorem number_of_endsInExponent (hexponent : u.EndsInExponent) {sign : Char}
    (hsign : sign = '+' ∨ sign = '-') (v : Numeral) :
    number (u.chars ++ sign :: v.chars) =
      .error (.badNumber (String.ofList (u.chars ++ sign :: v.chars))) := by
  have hmark : (afterToken ['0', 'x'] (u.chars ++ sign :: v.chars)).isSome = false := by
    rw [Numeral.chars, hexponent.1]
    rfl
  have hcontinues : continuesNumber false (u.digits.getLast u.nonempty) sign = true := by
    rcases hexponent.2 with hlast | hlast <;> rcases hsign with rfl | rfl <;> rw [hlast] <;> decide
  have hright : numberRun false sign v.chars = (v.chars, []) := by
    rw [← List.append_nil v.chars,
      numberRun_append_of_isAlphanum fun c hc => v.isAlphanum_of_mem_chars hc]
    rfl
  have hrun : numberRun false '\x00' (u.chars ++ sign :: v.chars) = (u.chars ++ sign :: v.chars, []) := by
    rw [numberRun_append_of_isAlphanum fun c hc => u.isAlphanum_of_mem_chars hc, getLastD_chars,
      numberRun_cons, if_pos hcontinues, hright]
  simp only [number, hmark, hrun, ofText_of_endsInExponent hexponent hsign v]

theorem parse_of_endsInExponent (hexponent : u.EndsInExponent) {sign : Char}
    (hsign : sign = '+' ∨ sign = '-') (v : Numeral) {source : String}
    (hsource : source.toList = u.chars ++ sign :: v.chars) :
    parse source = .error (.badNumber source) := by
  apply parse_of_operand_error
  rw [hsource, operand_chars_append, number_of_endsInExponent hexponent hsign v, ← hsource,
    String.ofList_toList]

/-! ### Texts without white space -/

/-- The text of two numerals with an operator between them and nothing else. -/
def tight (u : Numeral) (joint : Joint) (v : Numeral) : String :=
  String.ofList u.chars ++ joint.symbol ++ String.ofList v.chars

/-- The text of two numerals with an operator between them that has a space on each side. -/
def spaced (u : Numeral) (joint : Joint) (v : Numeral) : String :=
  Formula.spaced (String.ofList u.chars) joint.symbol (String.ofList v.chars)

theorem toList_tight (u : Numeral) (joint : Joint) (v : Numeral) :
    (tight u joint v).toList = u.chars ++ (joint.symbol.toList ++ v.chars) := by
  simp [tight]

theorem toList_spaced (u : Numeral) (joint : Joint) (v : Numeral) :
    (spaced u joint v).toList =
      u.chars ++ ([' '] ++ (joint.symbol.toList ++ ([' '] ++ v.chars))) := by
  simp [spaced, Formula.toList_spaced]

theorem parse_spaced (hu : u.value < 2 ^ 63) (hv : v.value < 2 ^ 63) (joint : Joint) :
    parse (spaced u joint v) = .ok (joint.build (ofNumeral u) (ofNumeral v)) := by
  have hgap : Blank [' '] := by
    intro c hc
    rw [List.mem_singleton.1 hc]
    decide
  exact parse_numerals hu hv joint hgap hgap (by simp) (toList_spaced u joint v)

theorem parse_tight (hu : u.value < 2 ^ 63) (hv : v.value < 2 ^ 63) {joint : Joint}
    (hsign : ¬(u.EndsInExponent ∧ joint.IsSign)) :
    parse (tight u joint v) = .ok (joint.build (ofNumeral u) (ofNumeral v)) := by
  have hgap : Blank [] := nofun
  exact parse_numerals hu hv joint hgap hgap (fun _ => hsign) (toList_tight u joint v)

theorem parse_tight_of_sign {joint : Joint} (hexponent : u.EndsInExponent) (hsign : joint.IsSign) :
    parse (tight u joint v) = .error (.badNumber (tight u joint v)) := by
  rcases hsign with hsymbol | hsymbol
  · apply parse_of_endsInExponent hexponent (.inl rfl) v
    rw [toList_tight, hsymbol]
    rfl
  · apply parse_of_endsInExponent hexponent (.inr rfl) v
    rw [toList_tight, hsymbol]
    rfl

/-- Between two numerals that fit the word an operator has the same meaning with and without spaces
around it, except for a plus or a minus behind a numeral that begins with `0X` and ends in the digit
`e`: such a text is refused as one number that is none. -/
theorem parse_tight_eq_spaced_iff (u v : Numeral) (joint : Joint) (hu : u.value < 2 ^ 63)
    (hv : v.value < 2 ^ 63) :
    parse (spaced u joint v) = .ok (joint.build (ofNumeral u) (ofNumeral v)) ∧
      (parse (tight u joint v) = parse (spaced u joint v) ↔ ¬(u.EndsInExponent ∧ joint.IsSign)) ∧
      (u.EndsInExponent ∧ joint.IsSign →
        parse (tight u joint v) = .error (.badNumber (tight u joint v))) := by
  have hspaced := parse_spaced hu hv joint
  refine ⟨hspaced, ⟨?_, ?_⟩, ?_⟩
  · rintro hsame ⟨hexponent, hsign⟩
    rw [hspaced, parse_tight_of_sign hexponent hsign] at hsame
    cases hsame
  · intro hsign
    rw [hspaced, parse_tight hu hv hsign]
  · rintro ⟨hexponent, hsign⟩
    exact parse_tight_of_sign hexponent hsign

/-- The numeral `0x1E`. -/
def thirty : Numeral where
  radix := .hexadecimal false
  digits := ['1', 'E']
  nonempty := by simp
  valid := by
    rw [List.forall_mem_cons, List.forall_mem_singleton]
    decide

/-- A minus behind a numeral that begins with `0x` needs no space, though the numeral ends in an `e`. -/
theorem parse_tight_eq_spaced_thirty :
    thirty.value < 2 ^ 63 ∧ (Numeral.ofNat 2).value < 2 ^ 63 ∧
      parse (tight thirty (.binary .sub (by decide)) (Numeral.ofNat 2)) =
        parse (spaced thirty (.binary .sub (by decide)) (Numeral.ofNat 2)) := by
  have hu : thirty.value < 2 ^ 63 := by decide
  have hv : (Numeral.ofNat 2).value < 2 ^ 63 := by decide
  have hsmall : ¬thirty.EndsInExponent := by
    rintro ⟨hradix, -⟩
    cases hradix
  have hsame := (parse_tight_eq_spaced_iff thirty (Numeral.ofNat 2) (.binary .sub (by decide)) hu hv).2.1
  exact ⟨hu, hv, hsame.2 fun h => hsmall h.1⟩

/-- The sum of `0X1E` and two needs a space before the plus. -/
theorem parse_capital_exponent_plus :
    parse "0X1E+2" = .error (.badNumber "0X1E+2") ∧
      parse "0X1E + 2" = .ok (.binary .add (.literal (.int 30)) (.literal (.int 2))) :=
  ⟨rfl, rfl⟩

end ScriptHost.Expr
