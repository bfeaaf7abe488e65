import ScriptHost.Proofs.Expr.Operand
import ScriptHost.Proofs.Script.Readers

/-!
# Printed expressions are read back

A formula is an expression whose operands are decimal numbers and variables. It is printed with one
space around the operators between two operands and with no more parentheses than the order of
precedence asks for, and reading what was printed gives the expression back.
-/

namespace ScriptHost.Expr

open Text Number

/-! ### Formulas -/

/-- Letters, numerals, underscores and double colons. -/
def isPlain : List Char → Bool
  | [] => true
  | ':' :: ':' :: rest => isPlain rest
  | c :: rest => (isLetterOrNumeral c || c = '_') && isPlain rest

/-- An expression of decimal numbers, variables and operators. -/
inductive Formula
  | literal (n : Int64) (hn : 0 ≤ n)
  | named (name : String) (hname : name ≠ "") (hplain : isPlain name.toList)
  | unary (op : UnaryOp) (operand : Formula)
  | binary (op : BinaryOp) (left right : Formula)
  | both (left right : Formula)
  | either (left right : Formula)
  | choice (condition yes no : Formula)

/-- The level of an operator, multiplication being the tightest. -/
def BinaryOp.level : BinaryOp → Nat
  | .mul | .div | .rem => 0
  | .add | .sub => 1
  | .lt | .gt | .le | .ge => 2
  | .eq | .ne | .textEq | .textNe => 3

namespace Formula

/-- The expression that a formula is. -/
def toExpr : Formula → Expr
  | .literal n _ => .literal (.int n)
  | .named name _ _ => .variable name
  | .unary op t => .unary op t.toExpr
  | .binary op l r => .binary op l.toExpr r.toExpr
  | .both l r => .both l.toExpr r.toExpr
  | .either l r => .either l.toExpr r.toExpr
  | .choice c y n => .choice c.toExpr y.toExpr n.toExpr

/-- How loosely a formula holds together: not at all loosely if it begins with a unary operator or has
no operator, and the looser the lower the precedence of its outermost operator is. -/
def looseness : Formula → Nat
  | .literal _ _ | .named _ _ _ | .unary _ _ => 0
  | .binary op _ _ => op.level + 1
  | .both _ _ => 5
  | .either _ _ => 6
  | .choice _ _ _ => 7

/-- A text, in parentheses if it holds together more loosely than it may. -/
def enclosed (bound loose : Nat) (text : String) : String :=
  if loose ≤ bound then text else "(" ++ text ++ ")"

/-- An operator between the texts of its operands. -/
def spaced (left symbol right : String) : String :=
  left ++ " " ++ symbol ++ " " ++ right

/-- The text of a formula. The left operand of an operator may hold together as loosely as the
operator does, the right one only more tightly; `?:` is the other way round. -/
def print : Formula → String
  | .literal n _ => integerText n
  | .named name _ _ => "$" ++ name
  | .unary op t => op.symbol ++ enclosed 0 t.looseness t.print
  | .binary op l r =>
    spaced (enclosed (op.level + 1) l.looseness l.print) op.symbol
      (enclosed op.level r.looseness r.print)
  | .both l r => spaced (enclosed 5 l.looseness l.print) "&&" (enclosed 4 r.looseness r.print)
  | .either l r => spaced (enclosed 6 l.looseness l.print) "||" (enclosed 5 r.looseness r.print)
  | .choice c y n =>
    spaced (enclosed 6 c.looseness c.print) "?"
      (spaced (enclosed 7 y.looseness y.print) ":" (enclosed 7 n.looseness n.print))

theorem toList_spaced (left symbol right : String) :
    (spaced left symbol right).toList =
      left.toList ++ ' ' :: (symbol.toList ++ ' ' :: right.toList) := by
  simp [spaced]

end Formula

/-! ### Operands -/

variable {k depth : Nat} {rest cs : List Char}

theorem endsBefore_of_ends (u : Numeral) (hrest : Ends k rest) : u.EndsBefore rest := by
  intro c hc
  obtain rfl | rfl := hrest.apart c hc
  · exact ⟨by decide, by decide, by simp⟩
  · exact ⟨by decide, by decide, by simp⟩

theorem reads_literal {n : Int64} (hn : 0 ≤ n) (depth : Nat) :
    Reads (operand (depth + 1)) 0 (integerText n).toList (.literal (.int n)) := by
  intro rest hrest
  have htext : (integerText n).toList = (Numeral.ofNat n.toInt.toNat).chars := toList_integerText hn
  have hint : (n.toInt.toNat : Int) = n.toInt :=
    Int.toNat_of_nonneg (by simpa [Int64.le_iff_toInt_le] using hn)
  have hsmall : (Numeral.ofNat n.toInt.toNat).value < 2 ^ 63 := by
    have hlt := n.toInt_lt
    rw [Numeral.value_ofNat]
    omega
  have hword : Int64.ofNat n.toInt.toNat = n := by
    rw [← Int64.ofInt_eq_ofNat, hint, Int64.ofInt_toInt]
  rw [htext, operand_chars_append, number_chars_append hsmall (endsBefore_of_ends _ hrest),
    Numeral.value_ofNat, hword]

theorem nameRun_of_ends (hrest : Ends k rest) : Script.nameRun rest = ([], rest) := by
  rw [Script.nameRun.eq_def]
  cases rest with
  | nil => rfl
  | cons c rest => obtain rfl | rfl := hrest.apart c rfl <;> rfl

theorem nameRun_append (hcs : isPlain cs) (hrest : Ends k rest) :
    Script.nameRun (cs ++ rest) = (cs, rest) := by
  fun_induction isPlain cs with
  | case1 => exact nameRun_of_ends hrest
  | case2 cs ih =>
    rw [List.cons_append, List.cons_append, Script.nameRun_colons, ih hcs]
  | case3 c cs _ ih =>
    rw [Bool.and_eq_true] at hcs
    rw [List.cons_append, Script.nameRun_cons hcs.1, ih hcs.2]

theorem ne_brace_of_isPlain (h : isPlain cs) (rest : List Char) : cs ≠ '{' :: rest := by
  rintro rfl
  rw [isPlain, Bool.and_eq_true] at h
  · exact absurd h.1 (by decide)
  · exact nofun

theorem variableName_append {name : String} (hname : name ≠ "") (hplain : isPlain name.toList)
    (hrest : Ends k rest) :
    Script.variableName (name.toList ++ rest) = .ok (some name, rest) := by
  have hrun := nameRun_append hplain hrest
  obtain ⟨c, cs, heq⟩ := List.exists_cons_of_ne_nil fun h => hname (String.toList_eq_nil_iff.1 h)
  have hofList : String.ofList (c :: cs) = name := by rw [← heq, String.ofList_toList]
  rw [heq, List.cons_append] at hrun ⊢
  unfold Script.variableName
  split
  · next h =>
    cases h
    exact absurd heq (ne_brace_of_isPlain hplain cs)
  · rw [hrun]
    dsimp only
    rw [hofList]

theorem reads_variable {name : String} (hname : name ≠ "") (hplain : isPlain name.toList)
    (depth : Nat) : Reads (operand (depth + 1)) 0 ('$' :: name.toList) (.variable name) := by
  intro rest hrest
  have hdrop (cs : List Char) : ('$' :: cs).dropWhile isBlank = '$' :: cs := rfl
  rw [List.cons_append, operand, findOperator_unary_of_ne (by decide) (by decide)]
  dsimp only
  rw [primary, hdrop]
  dsimp only
  rw [if_neg (by decide), if_pos rfl, Reader.ofScript, variableName_append hname hplain hrest]
  rfl

/-! ### Texts that hold together more or less loosely -/

/-- The text is read as the expression by all readers that let it hold together as loosely as it
does. A reader may be nested to any depth that the text has no more characters than. -/
structure ReadAs (loose : Nat) (text : String) (e : Expr) : Prop where
  operand : loose = 0 → ∀ depth, text.toList.length < depth →
    Reads (operand depth) 0 text.toList e
  continues : ∀ k < levels.length, loose ≤ k + 1 → ∀ depth, text.toList.length < depth →
    Continues (Expr.operand depth) k text.toList e
  choices : ∀ depth inner, text.toList.length < depth → text.toList.length < inner →
    Reads (choices (Expr.operand depth) inner) (levels.length + 1) text.toList e

namespace ReadAs

variable {loose bound : Nat} {text left right : String} {e l r : Expr}

theorem of_operand
    (h : ∀ depth, text.toList.length < depth → Reads (Expr.operand depth) 0 text.toList e) :
    ReadAs 0 text e where
  operand _ := h
  continues k _ _ depth hdepth := ((h depth hdepth).mono (Nat.zero_le k)).continues
  choices depth inner hdepth hinner := by
    obtain ⟨inner, rfl⟩ := Nat.exists_eq_add_one_of_ne_zero (Nat.ne_zero_of_lt hinner)
    exact ((h depth hdepth).mono (Nat.zero_le levels.length)).choices inner

theorem of_continues (hk : k < levels.length)
    (h : ∀ depth, text.toList.length < depth → Continues (Expr.operand depth) k text.toList e) :
    ReadAs (k + 1) text e where
  operand hzero := absurd hzero (Nat.succ_ne_zero k)
  continues j hj hle depth hdepth := by
    obtain rfl | hlt := Nat.eq_or_lt_of_le (Nat.le_of_succ_le_succ hle)
    · exact h depth hdepth
    · exact ((h depth hdepth).reads.mono hlt).continues
  choices depth inner hdepth hinner := by
    obtain ⟨inner, rfl⟩ := Nat.exists_eq_add_one_of_ne_zero (Nat.ne_zero_of_lt hinner)
    exact ((h depth hdepth).reads.mono hk).choices inner

theorem of_choices
    (h : ∀ depth inner, text.toList.length < depth → text.toList.length < inner →
      Reads (Expr.choices (Expr.operand depth) inner) (levels.length + 1) text.toList e) :
    ReadAs (levels.length + 1) text e where
  operand hzero := absurd hzero (Nat.succ_ne_zero _)
  continues _ hk hle := absurd hk (Nat.not_lt_of_le (Nat.le_of_succ_le_succ hle))
  choices := h

theorem mono (h : ReadAs loose text e) (hle : loose ≤ bound) : ReadAs bound text e where
  operand hzero := h.operand (Nat.le_zero.1 (hzero ▸ hle))
  continues k hk hbound := h.continues k hk (Nat.le_trans hle hbound)
  choices := h.choices

theorem enclosed (h : ReadAs loose text e) (bound : Nat) :
    ReadAs bound (Formula.enclosed bound loose text) e := by
  rw [Formula.enclosed]
  split
  · next hle => exact h.mono hle
  · refine (of_operand fun depth hdepth => ?_).mono (Nat.zero_le bound)
    have htext : ("(" ++ text ++ ")").toList = '(' :: (text.toList ++ [')']) := by simp
    rw [htext] at hdepth ⊢
    simp only [List.length_cons, List.length_append] at hdepth
    obtain ⟨depth, rfl⟩ := Nat.exists_eq_add_one_of_ne_zero (Nat.ne_zero_of_lt hdepth)
    exact (h.choices depth depth (by omega) (by omega)).parenthesized

theorem joined (h : ReadAs k text e) (hk : k ≤ levels.length) (hdepth : text.toList.length < depth) :
    Reads (joinedUpTo (Expr.operand depth) k) k text.toList e := by
  cases k with
  | zero => exact h.operand rfl depth hdepth
  | succ k => exact (h.continues k hk (Nat.le_refl _) depth hdepth).reads

theorem unary (h : ReadAs 0 text e) (op : UnaryOp) : ReadAs 0 (op.symbol ++ text) (.unary op e) := by
  refine of_operand fun depth hdepth => ?_
  obtain ⟨depth, rfl⟩ := Nat.exists_eq_add_one_of_ne_zero (Nat.ne_zero_of_lt hdepth)
  have hsymbol : 0 < op.symbol.toList.length := by cases op <;> decide
  rw [String.toList_append] at hdepth ⊢
  rw [List.length_append] at hdepth
  exact (h.operand rfl depth (by omega)).unary op

/-- Two texts with an operator of level `k` between them. -/
theorem join {token : String} {build : Expr → Expr → Expr} (hmem : (token, build) ∈ levelAt k)
    (hk : k < levels.length) (hleft : ReadAs (k + 1) left l) (hright : ReadAs k right r) :
    ReadAs (k + 1) (Formula.spaced left token right) (build l r) := by
  refine of_continues hk fun depth hdepth => ?_
  rw [Formula.toList_spaced] at hdepth ⊢
  simp only [List.length_cons, List.length_append] at hdepth
  exact (hleft.continues k hk (Nat.le_refl _) depth (by omega)).join
    (hright.joined (Nat.le_of_lt hk) (by omega)) (skipsSpace_operand depth) hmem

theorem choice {condition yes no : String} {c y n : Expr}
    (hcondition : ReadAs levels.length condition c) (hyes : ReadAs (levels.length + 1) yes y)
    (hno : ReadAs (levels.length + 1) no n) :
    ReadAs (levels.length + 1) (Formula.spaced condition "?" (Formula.spaced yes ":" no))
      (.choice c y n) := by
  refine of_choices fun depth inner hdepth hinner => ?_
  have htext : (Formula.spaced condition "?" (Formula.spaced yes ":" no)).toList =
      condition.toList ++ ' ' :: '?' :: ' ' :: (yes.toList ++ ' ' :: ':' :: ' ' :: no.toList) := by
    simp [Formula.toList_spaced]
  rw [htext] at hdepth hinner ⊢
  simp only [List.length_cons, List.length_append] at hdepth hinner
  obtain ⟨inner, rfl⟩ := Nat.exists_eq_add_one_of_ne_zero (Nat.ne_zero_of_lt hinner)
  exact (hcondition.joined (Nat.le_refl _) (by omega)).choice
    (hyes.choices depth inner (by omega) (by omega)) (hno.choices depth inner (by omega) (by omega))
    (skipsSpace_operand depth)

theorem parse (h : ReadAs loose text e) : parse text = .ok e := by
  unfold Expr.parse
  dsimp only
  generalize hdepth : text.toList.length + 1 = depth
  have hread := h.choices depth depth (by omega) (by omega) [] (ends_nil _)
  rw [List.append_nil] at hread
  simp only [hread, List.dropWhile_nil, List.isEmpty_nil, if_true]

end ReadAs

/-! ### Formulas are read back -/

theorem BinaryOp.mem_levelAt (op : BinaryOp) : (op.symbol, Expr.binary op) ∈ levelAt op.level := by
  cases op <;> simp [levelAt, levels, level, symbol]

theorem BinaryOp.level_lt (op : BinaryOp) : op.level < levels.length := by
  cases op <;> decide

namespace Formula

theorem readAs (t : Formula) : ReadAs t.looseness t.print t.toExpr := by
  induction t with
  | literal n hn =>
    refine .of_operand fun depth hdepth => ?_
    obtain ⟨depth, rfl⟩ := Nat.exists_eq_add_one_of_ne_zero (Nat.ne_zero_of_lt hdepth)
    exact reads_literal hn depth
  | named name hname hplain =>
    refine .of_operand fun depth hdepth => ?_
    obtain ⟨depth, rfl⟩ := Nat.exists_eq_add_one_of_ne_zero (Nat.ne_zero_of_lt hdepth)
    have htext : ("$" ++ name).toList = '$' :: name.toList := by simp
    rw [print, htext]
    exact reads_variable hname hplain depth
  | unary op t ih => exact (ih.enclosed 0).unary op
  | binary op l r ihl ihr =>
    exact ReadAs.join op.mem_levelAt op.level_lt (ihl.enclosed _) (ihr.enclosed _)
  | both l r ihl ihr =>
    have hmem : ("&&", Expr.both) ∈ levelAt 4 := List.mem_cons_self
    exact .join hmem (by decide) (ihl.enclosed 5) (ihr.enclosed 4)
  | either l r ihl ihr =>
    have hmem : ("||", Expr.either) ∈ levelAt 5 := List.mem_cons_self
    exact .join hmem (by decide) (ihl.enclosed 6) (ihr.enclosed 5)
  | choice c y n ihc ihy ihn =>
    exact .choice (ihc.enclosed 6) (ihy.enclosed 7) (ihn.enclosed 7)

/-- What is printed of a formula is read as that formula. -/
theorem parse_print (t : Formula) : parse t.print = .ok t.toExpr :=
  t.readAs.parse

example : (Formula.binary .sub (.binary .sub (.literal 1 (by decide)) (.literal 2 (by decide)))
    (.binary .sub (.unary .negate (.literal 3 (by decide))) (.literal 4 (by decide)))).print =
      "1 - 2 - (-3 - 4)" := by
  decide

end Formula

end ScriptHost.Expr
