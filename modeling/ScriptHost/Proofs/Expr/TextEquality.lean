import ScriptHost.Proofs.Command.Variables
import ScriptHost.Proofs.Expr.Integers
import ScriptHost.Proofs.Expr.RoundTrip

/-!
# Comparing texts

The operators `eq` and `ne` compare the texts of values. The value of a variable is read from its text
first, and what looks like a number is written back in one way only. So `eq` may take two texts for the
same that the command `string equal` tells apart: two literals of one integer, or texts of which one is
read as a double.
-/

namespace ScriptHost.Expr

open Text Number

variable {s t : String} {n : Int64}

/-! ### Texts of values -/

/-- Whether two texts are the same when they have been read as values and written back. -/
def sameText (s t : String) : Bool :=
  (Value.ofText s).toText == (Value.ofText t).toText

/-- A text is read as an integer if it is a literal of it but for the white space around it. A text with
a second sign between `0x` and the digits is read as well, and a literal of the least word is not. -/
def ReadsAs (s : String) (n : Int64) : Prop :=
  (IsLiteral (trimBlanks s.toList) n.toInt ∧ n ≠ Int64.minValue) ∨
    SignedTwice (trimBlanks s.toList) n

/-- Two texts that are read as values with one text. They are read as the same integer, or one of them is
read as a double. -/
inductive Confused (s t : String) : Prop
  | integer (n : Int64) (hs : ReadsAs s n) (ht : ReadsAs t n)
  | real (x : Float) (hreal : Value.ofText s = .real x ∨ Value.ofText t = .real x)
      (htext : (Value.ofText s).toText = (Value.ofText t).toText)

theorem ofText_eq_int_iff : Value.ofText s = .int n ↔ ReadsAs s n := by
  rw [ReadsAs, ← integer?_eq_some_iff]
  constructor
  · intro h
    unfold Value.ofText at h
    dsimp only at h
    split at h
    · next m hread =>
      cases h
      exact hread
    · split at h
      · split at h <;> cases h
      · cases h
  · intro hread
    rw [Value.ofText, hread]

/-- What is read as a text is read as it stands. -/
theorem eq_of_ofText_eq_text {u : String} (h : Value.ofText s = .text u) : u = s := by
  unfold Value.ofText at h
  dsimp only at h
  split at h
  · cases h
  · split at h
    · split at h
      · cases h
      · cases h
        rfl
    · cases h
      rfl

theorem ofText_integerText (hn : n ≠ Int64.minValue) : Value.ofText (integerText n) = .int n := by
  rw [ofText_eq_int_iff, ReadsAs, trimBlanks_integerText]
  exact .inl ⟨isLiteral_integerText n, hn⟩

/-- The text of the least word is read as a double. -/
theorem exists_ofText_integerText_minValue :
    ∃ x, Value.ofText (integerText Int64.minValue) = .real x :=
  ⟨_, rfl⟩

/-- No text is the text of an integer without being read as a number. -/
theorem integerText_ne_of_ofText_eq_text (ht : Value.ofText t = .text t) : integerText n ≠ t := by
  rintro rfl
  by_cases hn : n = Int64.minValue
  · subst hn
    obtain ⟨x, hx⟩ := exists_ofText_integerText_minValue
    rw [hx] at ht
    cases ht
  · rw [ofText_integerText hn] at ht
    cases ht

theorem sameText_iff : sameText s t = true ↔ s = t ∨ Confused s t := by
  rw [sameText, beq_iff_eq]
  constructor
  · intro htext
    cases hs : Value.ofText s with
    | real x => exact .inr (.real x (.inl hs) htext)
    | int m =>
      cases ht : Value.ofText t with
      | real x => exact .inr (.real x (.inr ht) htext)
      | int n =>
        rw [hs, ht] at htext
        have hmn : m = n := integerText_inj.1 htext
        exact .inr (.integer n (ofText_eq_int_iff.1 (hmn ▸ hs)) (ofText_eq_int_iff.1 ht))
      | text u =>
        obtain rfl := eq_of_ofText_eq_text ht
        rw [hs, ht] at htext
        exact absurd htext (integerText_ne_of_ofText_eq_text ht)
    | text u =>
      obtain rfl := eq_of_ofText_eq_text hs
      cases ht : Value.ofText t with
      | real x => exact .inr (.real x (.inr ht) htext)
      | int n =>
        rw [hs, ht] at htext
        exact absurd htext.symm (integerText_ne_of_ofText_eq_text hs)
      | text v =>
        obtain rfl := eq_of_ofText_eq_text ht
        rw [hs, ht] at htext
        exact .inl htext
  · rintro (rfl | hconfused)
    · rfl
    · cases hconfused with
      | integer n hs ht => rw [ofText_eq_int_iff.2 hs, ofText_eq_int_iff.2 ht]
      | real x _ htext => exact htext

/-! ### Expressions -/

variable {e : Engine} {w : World} {i : InterpId} {a b : String}

/-- An expression with an operator between two variables. -/
def onVariables (op : BinaryOp) (a b : String) : String :=
  Formula.spaced ("$" ++ a) op.symbol ("$" ++ b)

theorem parse_onVariables (op : BinaryOp) (ha : a ≠ "" ∧ isPlain a.toList = true)
    (hb : b ≠ "" ∧ isPlain b.toList = true) :
    parse (onVariables op a b) = .ok (.binary op (.variable a) (.variable b)) := by
  have hleft := (Formula.named a ha.1 ha.2).readAs
  have hright := (Formula.named b hb.1 hb.2).readAs
  exact (ReadAs.join op.mem_levelAt op.level_lt (hleft.mono (Nat.zero_le _))
    (hright.mono (Nat.zero_le _))).parse

theorem run_evalExpr_onVariables (op : BinaryOp) (hs : (w.interp i).var? a = some s)
    (ht : (w.interp i).var? b = some t) :
    (evalExpr e i (.binary op (.variable a) (.variable b))).run w =
      (Exec.ofFault (applyBinary op (.ofText s) (.ofText t))).run w := by
  simp only [evalExpr, bind_assoc, pure_bind]
  rw [run_readVar_bind hs, run_readVar_bind ht]

/-- The command `expr` applies an operator to the values of two variables. -/
theorem run_expr_onVariables {op : BinaryOp} {v : Value} (ha : a ≠ "" ∧ isPlain a.toList = true)
    (hb : b ≠ "" ∧ isPlain b.toList = true) (hs : (w.interp i).var? a = some s)
    (ht : (w.interp i).var? b = some t)
    (happly : applyBinary op (.ofText s) (.ofText t) = .ok v) :
    (Command.expr e i [onVariables op a b]).run w = .ok (.ok v.toText) w := by
  have hwords : Command.joinWords [onVariables op a b] = onVariables op a b := by
    rw [Command.joinWords, String.intercalate_singleton]
  have hparse : parseExpr (onVariables op a b) = pure (.binary op (.variable a) (.variable b)) := by
    rw [parseExpr, parse_onVariables op ha hb]
    rfl
  have heval : (evalExpr e i (.binary op (.variable a) (.variable b))).run w = .ok (.ok v) w := by
    rw [run_evalExpr_onVariables op hs ht, happly]
    rfl
  have hexpr : Command.expr e i [onVariables op a b] =
      evalExprText e i (Command.joinWords [onVariables op a b]) := rfl
  rw [hexpr, hwords, evalExprText, hparse, pure_bind, Exec.run_bind_of_ok heval]
  rfl

theorem toText_ofBool (b : Bool) : (Value.ofBool b).toText = Command.truthText b := by
  cases b <;> decide

/-- The operator `eq` gives one exactly if the values of two variables are the same text or are confused,
and `ne` gives the opposite. So `eq` agrees with `string equal` exactly if the two texts are not confused
or are the same. -/
theorem textEq_exact (e : Engine) (ha : a ≠ "" ∧ isPlain a.toList = true)
    (hb : b ≠ "" ∧ isPlain b.toList = true) (hs : (w.interp i).var? a = some s)
    (ht : (w.interp i).var? b = some t) :
    (Command.expr e i [onVariables .textEq a b]).run w =
        .ok (.ok (Command.truthText (sameText s t))) w ∧
      (Command.expr e i [onVariables .textNe a b]).run w =
        .ok (.ok (Command.truthText (!sameText s t))) w ∧
      (Command.string ["equal", s, t]).run w = .ok (.ok (Command.truthText (s == t))) w ∧
      (sameText s t = true ↔ s = t ∨ Confused s t) ∧
      (sameText s t = (s == t) ↔ (Confused s t → s = t)) := by
  refine ⟨?_, ?_, rfl, sameText_iff, ?_⟩
  · rw [run_expr_onVariables ha hb hs ht rfl]
    exact congrArg (fun text => EStateM.Result.ok (Except.ok text) w) (toText_ofBool _)
  · rw [run_expr_onVariables ha hb hs ht rfl]
    exact congrArg (fun text => EStateM.Result.ok (Except.ok text) w) (toText_ofBool _)
  · rw [Bool.eq_iff_iff, sameText_iff, beq_iff_eq, or_iff_left_iff_imp]

/-- A world with two variables, one in hexadecimal and one in decimal. -/
def sixteens : World :=
  (({} : World).newInterp "" true none).2.modifyInterp 0 fun r =>
    (r.setVar "a" "0x10").setVar "b" "16"

theorem textEq_exact_sixteens :
    (sixteens.interp 0).var? "a" = some "0x10" ∧ (sixteens.interp 0).var? "b" = some "16" ∧
      (Command.expr engine 0 [onVariables .textEq "a" "b"]).run sixteens =
        .ok (.ok (Command.truthText (sameText "0x10" "16"))) sixteens ∧
      (sameText "0x10" "16" = true ↔ "0x10" = "16" ∨ Confused "0x10" "16") := by
  have ha : (sixteens.interp 0).var? "a" = some "0x10" := by decide
  have hb : (sixteens.interp 0).var? "b" = some "16" := by decide
  have hexact := textEq_exact engine (a := "a") (b := "b") (by decide) (by decide) ha hb
  exact ⟨ha, hb, hexact.1, hexact.2.2.2.1⟩

/-- The two spellings of sixteen are different texts, but not for `eq`. -/
theorem textEq_confuses_sixteens :
    Act.result (Command.expr engine 0 ["$a eq $b"]).run sixteens = .ok (.ok "1") ∧
      Act.result (Command.string ["equal", "0x10", "16"]).run sixteens = .ok (.ok "0") := by
  decide +kernel

end ScriptHost.Expr
