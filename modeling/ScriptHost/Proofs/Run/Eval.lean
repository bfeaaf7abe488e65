import ScriptHost.Proofs.Run.Action

/-!
# Variables, substitution and evaluation from outside
-/

namespace ScriptHost

open Run

/-- The world that an engine leaves is related to the one that it finds. -/
def Engine.Moves (R : World → World → Prop) (e : Engine) : Prop :=
  ∀ {α : Type} (task : Task α), (e.call task).Moves R

section

variable {L R : World → World → Prop} {e : Engine} {i : InterpId}

theorem moves_script (he : e.Moves R) (i : InterpId) (source : String) :
    Exec.Moves R (e.script i source) :=
  .ofAct (he _)

theorem Engine.Moves.leads (he : e.Moves R) : e.Moves Leads :=
  fun task => (he task).leads

theorem run_checkLive (i : InterpId) (w : World) :
    (checkLive i).run w =
      if (w.interp i).deleted then
        .ok (.error (.error "attempt to call eval in deleted interpreter")) w
      else .ok (.ok ()) w := by
  have h : (checkLive i).run w =
      (if (w.interp i).deleted = true then Exec.fail "attempt to call eval in deleted interpreter"
        else pure () : Exec Unit).run w := rfl
  rw [h]
  split <;> rfl

variable [Tracks L R]

theorem Engine.Moves.all (he : e.Moves R) : e.Moves L :=
  fun task => (he task).all

include L

/-! ### Variables -/

theorem moves_getInterp (i : InterpId) : (getInterp i).Moves R :=
  .get_bind fun w => .pure _ w

theorem movesFrom_getInterp_bind {β : Type} {f : Interpreter → Act β} {w : World}
    (h : (f (w.interp i)).MovesFrom R w) : (getInterp i >>= f).MovesFrom R w :=
  .bind (moves_getInterp i w) fun _ _ hw => by cases hw; exact h

theorem movesFrom_lift_getInterp_bind {β : Type} {f : Interpreter → Exec β} {w : World}
    (h : Exec.MovesFrom R (f (w.interp i)) w) : Exec.MovesFrom R (liftM (getInterp i) >>= f) w :=
  .bind (Exec.Moves.lift (moves_getInterp i) w) fun _ _ hw => by cases hw; exact h

theorem moves_updateInterp {f : Interpreter → Interpreter} (hf : Interpreter.Mild f)
    (i : InterpId) : (updateInterp i f).Moves R :=
  .modify fun w => Follows.edit hf w i

theorem moves_getFramed (i : InterpId) (name : String) : (getFramed i name).Moves R := by
  refine .bind (moves_getInterp i) fun r => ?_
  split
  · exact .panic _
  · exact .pure _

theorem moves_checkLive (i : InterpId) : Exec.Moves R (checkLive i) := by
  refine .bind (.lift (moves_getInterp i)) fun r => ?_
  split
  · exact .fail _
  · exact .pure _

theorem movesFrom_checkLive_bind {β : Type} {f : PUnit → Exec β} {w : World}
    (h : (w.interp i).deleted = false → Exec.MovesFrom R (f ()) w) :
    Exec.MovesFrom R (checkLive i >>= f) w := by
  refine .bind (moves_checkLive i w) fun _ w' hw => ?_
  rw [run_checkLive] at hw
  split at hw
  · cases hw
  · next hlive =>
    cases hw
    exact h (Bool.eq_false_iff.2 hlive)

theorem moves_lookupVar (i : InterpId) (name : String) : Exec.Moves R (lookupVar i name) :=
  .bind (.lift (moves_getFramed i name)) fun _ => .pure _

theorem moves_readVar (i : InterpId) (name : String) : Exec.Moves R (readVar i name) := by
  refine .bind (moves_lookupVar i name) fun found => ?_
  cases found with
  | some value => exact .pure _
  | none => exact .fail _

theorem moves_writeVar (i : InterpId) (name value : String) : Exec.Moves R (writeVar i name value) :=
  .bind (.lift (moves_getFramed i name)) fun _ =>
    .bind (.lift (moves_updateInterp (.setVar name value) i)) fun _ => .pure _

theorem moves_removeVar (i : InterpId) (name : String) : Exec.Moves R (removeVar i name) := by
  refine .bind (moves_lookupVar i name) fun found => ?_
  cases found with
  | some value => exact .lift (moves_updateInterp (.unsetVar name) i)
  | none => exact .fail _

theorem moves_getGlobal (i : InterpId) (name : String) : (getGlobal i name).Moves R :=
  .bind (moves_getFramed i "::") fun _ => .pure _

theorem moves_setGlobal (i : InterpId) (name value : String) :
    Exec.Moves R (setGlobal i name value) :=
  .bind (moves_checkLive i) fun _ => .bind (.lift (moves_getFramed i "::")) fun _ =>
    .bind (.lift (moves_updateInterp (.setGlobal name value) i)) fun _ => .pure _

theorem moves_unsetGlobal (i : InterpId) (name : String) : (unsetGlobal i name).Moves R :=
  .bind (moves_getFramed i "::") fun _ =>
    .bind (moves_updateInterp (.unsetGlobal name) i) fun _ => .pure _

/-! ### Substitution and expressions -/

theorem moves_substituteFrom (he : e.Moves R) (i : InterpId) (text : String) (word : Script.Word) :
    Exec.Moves R (substituteFrom e i text word) := by
  induction word generalizing text with
  | nil => exact .pure _
  | cons part rest ih =>
    cases part with
    | text value => exact ih _
    | «variable» name => exact .bind (moves_readVar i name) fun _ => ih _
    | script source => exact .bind (moves_script he i source) fun _ => ih _

theorem moves_substituteAll (he : e.Moves R) (i : InterpId) (words : List Script.Word) :
    Exec.Moves R (substituteAll e i words) := by
  induction words with
  | nil => exact .pure _
  | cons word rest ih =>
    exact .bind (moves_substituteFrom he i "" word) fun _ => .bind ih fun _ => .pure _

theorem moves_ofFault {α : Type} (result : Except Expr.Fault α) :
    Exec.Moves R (Exec.ofFault result) :=
  .ofExcept _

theorem moves_evalExpr (he : e.Moves R) (i : InterpId) (expr : Expr) :
    Exec.Moves R (evalExpr e i expr) := by
  induction expr with
  | literal value => exact .pure _
  | «variable» name => exact .bind (moves_readVar i name) fun _ => .pure _
  | script source => exact .bind (moves_script he i source) fun _ => .pure _
  | quoted parts => exact .bind (moves_substituteFrom he i "" parts) fun _ => .pure _
  | unary op operand ih => exact .bind ih fun _ => moves_ofFault _
  | binary op left right ihl ihr =>
    exact .bind ihl fun _ => .bind ihr fun _ => moves_ofFault _
  | both left right ihl ihr =>
    refine .bind ihl fun _ => .bind (moves_ofFault _) fun truth => ?_
    cases truth with
    | true => exact .bind ihr fun _ => .bind (moves_ofFault _) fun _ => .pure _
    | false => exact .pure _
  | either left right ihl ihr =>
    refine .bind ihl fun _ => .bind (moves_ofFault _) fun truth => ?_
    cases truth with
    | true => exact .pure _
    | false => exact .bind ihr fun _ => .bind (moves_ofFault _) fun _ => .pure _
  | choice condition yes no ihc ihy ihn =>
    refine .bind ihc fun _ => .bind (moves_ofFault _) fun truth => ?_
    cases truth with
    | true => exact ihy
    | false => exact ihn

theorem moves_evalExprText (he : e.Moves R) (i : InterpId) (text : String) :
    Exec.Moves R (evalExprText e i text) :=
  .bind (.ofExcept _) fun _ => .bind (moves_evalExpr he i _) fun _ => .pure _

theorem moves_evalCondition (he : e.Moves R) (i : InterpId) (text : String) :
    Exec.Moves R (evalCondition e i text) :=
  .bind (.ofExcept _) fun _ => .bind (moves_evalExpr he i _) fun _ => moves_ofFault _

/-! ### Evaluation from outside -/

theorem moves_finish (i : InterpId) (completion : Completion) : (finish i completion).Moves R := by
  refine .bind (moves_getInterp i) fun r => ?_
  split <;> exact .pure _

theorem moves_evalFrom (he : e.Moves R) (i : InterpId) (source : String) :
    (evalFrom e i source).Moves R :=
  .bind (he _) fun _ => moves_finish i _

theorem moves_invokeFrom (he : e.Moves R) (i : InterpId) (words : List String) :
    (invokeFrom e i words).Moves R :=
  .bind (he _) fun _ => moves_finish i _

/-- Frames are put aside only in a live interpreter. -/
theorem movesFrom_evalAtGlobal (he : e.Moves R) {w : World} (source : String)
    (hlive : (w.interp i).deleted = false) : (evalAtGlobal e i source).MovesFrom R w := by
  refine movesFrom_getInterp_bind ?_
  split
  · exact .refl w rfl
  · refine .bracket (moves_evalFrom he i source _) (fun htidy => ?_) (Follows.aside hlive)
      (Follows.aside hlive)
    exact htidy.modifyInterp fun r hr => hr

end

end ScriptHost
