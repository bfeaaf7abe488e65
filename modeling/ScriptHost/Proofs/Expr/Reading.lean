import ScriptHost.Expr.Parser
import ScriptHost.Proofs.Number.Decimal

/-!
# How readers of expressions put texts together

A text is read as an expression if a reader does so whatever follows, as long as no operator follows
that the reader would take in. From operands to `?:` each reader reads what the one below it reads and
what its own operators join; what the last one reads is an operand when it stands in parentheses.
-/

namespace ScriptHost.Expr

open Text

/-! ### Levels -/

/-- The operators of the level with a given number, from the tightest on. -/
def levelAt (k : Nat) : Level :=
  levels.getD k []

/-- Operands joined by the operators of the first levels. -/
def joinedUpTo (operand : Reader Expr) : Nat → Reader Expr
  | 0 => operand
  | k + 1 => leftAssoc (joinedUpTo operand k) (levelAt k)

theorem joined_eq_joinedUpTo (operand : Reader Expr) :
    joined operand = joinedUpTo operand levels.length :=
  rfl

variable {k m depth : Nat} {rest text left right cs : List Char} {e l r : Expr} {read : Reader Expr}

/-! ### What may follow an expression -/

/-- Nothing, a blank or a closing parenthesis follows, and none of the operators of the first `k`
levels. Above the last level stands `?:`. -/
structure Ends (k : Nat) (rest : List Char) : Prop where
  apart : ∀ c ∈ rest.head?, c = ' ' ∨ c = ')'
  operators : ∀ j < k, findOperator (levelAt j) rest = none
  question : levels.length < k → eat "?" rest = none

theorem Ends.mono (h : Ends k rest) (hle : m ≤ k) : Ends m rest :=
  ⟨h.apart, fun j hj => h.operators j (Nat.lt_of_lt_of_le hj hle),
    fun hm => h.question (Nat.lt_of_lt_of_le hm hle)⟩

theorem ends_nil (k : Nat) : Ends k [] := by
  refine ⟨nofun, fun j _ => ?_, fun _ => rfl⟩
  rcases j with _ | _ | _ | _ | _ | _ | j <;> rfl

theorem ends_parenthesis (k : Nat) (cs : List Char) : Ends k (')' :: cs) := by
  refine ⟨fun c hc => .inr (by simpa using hc.symm), fun j _ => ?_, fun _ => rfl⟩
  rcases j with _ | _ | _ | _ | _ | _ | j <;> rfl

theorem ends_colon (k : Nat) (cs : List Char) : Ends k (' ' :: ':' :: cs) := by
  refine ⟨fun c hc => .inl (by simpa using hc.symm), fun j _ => ?_, fun _ => rfl⟩
  rcases j with _ | _ | _ | _ | _ | _ | j <;> rfl

theorem ends_question (cs : List Char) : Ends levels.length (' ' :: '?' :: cs) := by
  refine ⟨fun c hc => .inl (by simpa using hc.symm), fun j _ => ?_,
    fun h => absurd h (Nat.lt_irrefl _)⟩
  rcases j with _ | _ | _ | _ | _ | _ | j <;> rfl

/-- An operator ends what stands before it for all tighter levels, none of which takes it for one of
its own, and is found by the readers of its level. -/
theorem joins_of_mem {joint : String × (Expr → Expr → Expr)} (hmem : joint ∈ levelAt k)
    (cs : List Char) :
    Ends k (' ' :: (joint.1.toList ++ ' ' :: cs)) ∧
      findOperator (levelAt k) (' ' :: (joint.1.toList ++ ' ' :: cs)) =
        some (joint.2, ' ' :: cs) := by
  have hlt : k < levels.length := by
    by_contra hge
    rw [levelAt, List.getD_eq_getElem?_getD, List.getElem?_eq_none (Nat.le_of_not_lt hge)] at hmem
    cases hmem
  suffices h : (∀ j < k, findOperator (levelAt j) (' ' :: (joint.1.toList ++ ' ' :: cs)) = none) ∧
      findOperator (levelAt k) (' ' :: (joint.1.toList ++ ' ' :: cs)) =
        some (joint.2, ' ' :: cs) from
    ⟨⟨fun c hc => .inl (by simpa using hc.symm), h.1, fun h => absurd hlt (Nat.lt_asymm h)⟩, h.2⟩
  simp only [levels, List.length_cons, List.length_nil] at hlt
  interval_cases k <;>
    simp only [levelAt, levels, List.getD_cons_zero, List.getD_cons_succ, List.mem_cons,
      List.not_mem_nil, or_false] at hmem <;>
    rcases hmem with rfl | rfl | rfl | rfl
  all_goals
    refine ⟨fun j hj => ?_, rfl⟩
    interval_cases j <;> rfl

/-! ### Blanks -/

/-- A reader that passes over a space. -/
def SkipsSpace (read : Reader Expr) : Prop :=
  ∀ cs, read (' ' :: cs) = read cs

theorem skipsSpace_operand (depth : Nat) : SkipsSpace (operand depth) := by
  intro cs
  cases depth <;> rfl

theorem SkipsSpace.joinedUpTo (h : SkipsSpace read) (k : Nat) :
    SkipsSpace (joinedUpTo read k) := by
  induction k with
  | zero => exact h
  | succ k ih =>
    intro cs
    rw [Expr.joinedUpTo, leftAssoc, leftAssoc, ih cs]

theorem SkipsSpace.choices (h : SkipsSpace read) (depth : Nat) :
    SkipsSpace (choices read depth) := by
  intro cs
  cases depth with
  | zero => rfl
  | succ depth =>
    rw [Expr.choices, Expr.choices, joined_eq_joinedUpTo, h.joinedUpTo levels.length cs]

/-! ### Reading a text -/

/-- The reader reads the text as the expression wherever it ends there. -/
def Reads (read : Reader Expr) (k : Nat) (text : List Char) (e : Expr) : Prop :=
  ∀ rest, Ends k rest → read (text ++ rest) = .ok (e, rest)

/-- The operators of level `k` go on behind the text with the expression as their left operand. The
text may itself end with an operand of that level, so its reader cannot be said to end there. -/
def Continues (read : Reader Expr) (k : Nat) (text : List Char) (e : Expr) : Prop :=
  ∀ rest, Ends k rest → ∃ count, rest.length ≤ count ∧
    joinedUpTo read (k + 1) (text ++ rest) =
      chain (joinedUpTo read k) (levelAt k) count e rest

theorem chain_of_none (h : findOperator (levelAt k) rest = none) (count : Nat) :
    chain read (levelAt k) count e rest = .ok (e, rest) := by
  cases count with
  | zero => rfl
  | succ count => rw [chain, h]

theorem Reads.continues (h : Reads (joinedUpTo read k) k text e) : Continues read k text e := by
  intro rest hrest
  refine ⟨rest.length, Nat.le_refl _, ?_⟩
  rw [joinedUpTo, leftAssoc, h rest hrest]

theorem Continues.reads (h : Continues read k text e) :
    Reads (joinedUpTo read (k + 1)) (k + 1) text e := by
  intro rest hrest
  obtain ⟨count, -, hread⟩ := h rest (hrest.mono (Nat.le_succ k))
  rw [hread, chain_of_none (hrest.operators k (Nat.lt_succ_self k))]

theorem Reads.mono (h : Reads (joinedUpTo read k) k text e) (hle : k ≤ m) :
    Reads (joinedUpTo read m) m text e := by
  induction hle with
  | refl => exact h
  | step _ ih => exact ih.continues.reads

/-- An operator between what its own level reads on the left and tighter levels on the right. -/
theorem Continues.join (hleft : Continues read k left l)
    (hright : Reads (joinedUpTo read k) k right r) (hspace : SkipsSpace read)
    {token : String} {build : Expr → Expr → Expr} (hmem : (token, build) ∈ levelAt k) :
    Continues read k (left ++ ' ' :: (token.toList ++ ' ' :: right)) (build l r) := by
  intro rest hrest
  obtain ⟨hends, hfind⟩ := joins_of_mem hmem (right ++ rest)
  dsimp only at hends hfind
  obtain ⟨count, hcount, hread⟩ := hleft _ hends
  have hlong : rest.length + 1 ≤ count := by
    simp only [List.length_cons, List.length_append] at hcount
    omega
  obtain ⟨count, rfl⟩ := Nat.exists_eq_add_of_le' (Nat.le_trans (Nat.le_add_left 1 _) hlong)
  refine ⟨count, Nat.le_of_succ_le_succ hlong, ?_⟩
  simp only [List.append_assoc, List.cons_append]
  rw [hread, chain, hfind]
  dsimp only
  rw [hspace.joinedUpTo k, hright rest hrest]

theorem Reads.choices (h : Reads (joinedUpTo read levels.length) levels.length text e)
    (depth : Nat) : Reads (choices read (depth + 1)) (levels.length + 1) text e := by
  intro rest hrest
  rw [Expr.choices, joined_eq_joinedUpTo, h rest (hrest.mono (Nat.le_succ _))]
  dsimp only
  rw [hrest.question (Nat.lt_succ_self _)]

theorem Reads.choice {condition yes no : List Char} {c y n : Expr}
    (hcondition : Reads (joinedUpTo read levels.length) levels.length condition c)
    (hyes : Reads (Expr.choices read depth) (levels.length + 1) yes y)
    (hno : Reads (Expr.choices read depth) (levels.length + 1) no n)
    (hspace : SkipsSpace read) :
    Reads (Expr.choices read (depth + 1)) (levels.length + 1)
      (condition ++ ' ' :: '?' :: ' ' :: (yes ++ ' ' :: ':' :: ' ' :: no)) (.choice c y n) := by
  intro rest hrest
  have hquestion (cs : List Char) : eat "?" (' ' :: '?' :: cs) = some cs := rfl
  have hcolon (cs : List Char) : eat ":" (' ' :: ':' :: cs) = some cs := rfl
  simp only [List.append_assoc, List.cons_append]
  rw [Expr.choices, joined_eq_joinedUpTo, hcondition _ (ends_question _)]
  dsimp only
  rw [hquestion]
  dsimp only
  rw [hspace.choices depth, hyes _ (ends_colon _ _)]
  dsimp only
  rw [hcolon]
  dsimp only
  rw [hspace.choices depth, hno rest hrest]

/-! ### Operands -/

theorem findOperator_unary_of_ne {c : Char} (hblank : isBlank c = false)
    (hc : c ≠ '-' ∧ c ≠ '+' ∧ c ≠ '!') (cs : List Char) :
    findOperator unaryOperators (c :: cs) = none := by
  have hdrop : (c :: cs).dropWhile isBlank = c :: cs := List.dropWhile_cons_of_neg (by simp [hblank])
  have hnone (token : Char) (htoken : c ≠ token) : eat (String.singleton token) (c :: cs) = none := by
    rw [eat, hdrop, String.toList_singleton, afterToken, if_neg htoken.symm]
  have hminus : eat "-" (c :: cs) = none := hnone '-' hc.1
  have hplus : eat "+" (c :: cs) = none := hnone '+' hc.2.1
  have hbang : eat "!" (c :: cs) = none := hnone '!' hc.2.2
  simp [findOperator, unaryOperators, hminus, hplus, hbang]

theorem findOperator_symbol (op : UnaryOp) (cs : List Char) :
    findOperator unaryOperators (op.symbol.toList ++ cs) = some (op, cs) := by
  cases op <;> rfl

theorem Reads.unary (h : Reads (operand depth) 0 text e) (op : UnaryOp) :
    Reads (operand (depth + 1)) 0 (op.symbol.toList ++ text) (.unary op e) := by
  intro rest hrest
  rw [List.append_assoc, operand, findOperator_symbol]
  dsimp only
  rw [h rest hrest]

theorem Reads.parenthesized
    (h : Reads (Expr.choices (operand depth) depth) (levels.length + 1) text e) :
    Reads (operand (depth + 1)) 0 ('(' :: (text ++ [')'])) e := by
  intro rest hrest
  have hfind (cs : List Char) : findOperator unaryOperators ('(' :: cs) = none := rfl
  have hblank (cs : List Char) : ('(' :: cs).dropWhile isBlank = '(' :: cs := rfl
  have hclose (cs : List Char) : eat ")" (')' :: cs) = some cs := rfl
  simp only [List.cons_append, List.append_assoc, List.nil_append]
  rw [operand, hfind]
  dsimp only
  rw [primary, hblank]
  dsimp only
  rw [if_pos rfl, h _ (ends_parenthesis _ _)]
  dsimp only
  rw [hclose]

end ScriptHost.Expr
