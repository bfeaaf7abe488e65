import ScriptHost.Engine
import ScriptHost.Proofs.Run.Built

/-!
# Codes with which scripts end

A completion whose code is that of a normal end and that still ends a script abruptly cannot come up:
no command ends in this way, whoever made it. So what a caller from outside is told does not depend on
whether the completion was folded by the outermost evaluation.
-/

namespace ScriptHost

open Interpreter Exec

variable {α β : Type} {e : Engine} {i : InterpId} {w w' : World}

theorem Completion.proper_outermost (completion : Completion) :
    Abrupt.Proper completion.outermost := by
  unfold outermost
  split
  · exact Abrupt.proper_ok _
  · split
    · exact Abrupt.proper_ok _
    · exact Abrupt.proper_ok _
    · exact Abrupt.proper_error nofun
    · exact Abrupt.proper_error nofun
    · next hcode => exact Abrupt.proper_error (by rw [hcode]; exact nofun)

/-! ### Code that ends properly -/

namespace Exec

/-- If some code ends in a world, it ends properly. -/
def EndsFrom (code : Exec α) (w : World) : Prop :=
  ∀ result w', code.run w = .ok result w' → Abrupt.Proper result

variable {code : Exec α} {f : α → Exec β}

theorem EndsFrom.bind (h : code.EndsFrom w)
    (hf : ∀ a w', code.run w = .ok (.ok a) w' → (f a).EndsFrom w') : (code >>= f).EndsFrom w := by
  intro result w' hrun
  obtain ⟨first, u, hcode, hrest⟩ := Act.exists_of_bind_ok hrun
  cases first with
  | ok a => exact hf a u hcode result w' hrest
  | error end_ =>
    cases hrest
    intro other hother
    cases hother
    exact h _ _ hcode end_ rfl

theorem EndsFrom.of_ok {result : Except Abrupt α} (hrun : code.run w = .ok result w')
    (hproper : Abrupt.Proper result) : code.EndsFrom w := by
  intro result' w'' hrun'
  cases hrun.symm.trans hrun'
  exact hproper

theorem EndsFrom.of_error {halt : Halt} (hrun : code.run w = .error halt w') :
    code.EndsFrom w := by
  intro result w'' hrun'
  cases hrun.symm.trans hrun'

theorem EndsFrom.lift (act : Act α) (w : World) : (liftM act : Exec α).EndsFrom w := by
  intro result w' hrun
  obtain ⟨a, u, -, hrest⟩ := Act.exists_of_bind_ok hrun
  cases hrest
  exact Abrupt.proper_ok a

theorem EndsFrom.ofAct {act : Act (Except Abrupt α)}
    (h : ∀ result w', act w = .ok result w' → Abrupt.Proper result) : (ofAct act).EndsFrom w :=
  h

end Exec

theorem Act.exists_of_ensuring_ok {act : Act α} {g : World → World} {a : α}
    (h : act.ensuring g w = .ok a w') : ∃ u, act w = .ok a u ∧ w' = g u := by
  unfold ensuring at h
  split at h
  · next a' u hact =>
    cases h
    exact ⟨u, hact, rfl⟩
  · cases h

/-- An evaluation from outside reports the completion as it is if a command is running. -/
theorem finish_eq (i : InterpId) (completion : Completion) (w : World) :
    finish i completion w =
      .ok (if (w.interp i).isBusy then completion else completion.outermost) w := by
  have hfinish : finish i completion w =
      (if (w.interp i).isBusy then pure completion else pure completion.outermost :
        Act Completion) w := rfl
  rw [hfinish]
  split <;> rfl

theorem proper_finish {completion result : Completion} (hproper : Abrupt.Proper completion)
    (hrun : finish i completion w = .ok result w') : Abrupt.Proper result := by
  rw [finish_eq] at hrun
  cases hrun
  split
  · exact hproper
  · exact completion.proper_outermost

theorem proper_evalFrom [e.Proper] {source : String} {completion : Completion}
    (hrun : evalFrom e i source w = .ok completion w') : Abrupt.Proper completion := by
  obtain ⟨raw, u, hscript, hfinish⟩ := Act.exists_of_bind_ok hrun
  exact proper_finish (Engine.Proper.script hscript) hfinish

theorem proper_invokeFrom [e.Proper] {words : List String} {completion : Completion}
    (hrun : invokeFrom e i words w = .ok completion w') : Abrupt.Proper completion := by
  obtain ⟨raw, u, hwords, hfinish⟩ := Act.exists_of_bind_ok hrun
  exact proper_finish (Engine.Proper.words hwords) hfinish

/-! ### Commands that serve what is pending or call the host -/

theorem endsFrom_throw {end_ : Abrupt} (h : end_.code ≠ .ok) (w : World) :
    (throw end_ : Exec α).EndsFrom w :=
  .of_ok rfl (Abrupt.proper_error h)

theorem endsFrom_fail (message : String) (w : World) : (Exec.fail message : Exec α).EndsFrom w :=
  endsFrom_throw (fun h => by cases h) w

theorem endsFrom_pure (a : α) (w : World) : (pure a : Exec α).EndsFrom w :=
  .of_ok rfl (Abrupt.proper_ok a)

theorem endsFrom_complete (outcome : Outcome) (w : World) : (complete outcome).EndsFrom w := by
  refine .ofAct fun result w' hrun => ?_
  cases outcome <;> cases hrun
  · exact Abrupt.proper_ok _
  · exact Abrupt.proper_error nofun
  · exact Abrupt.proper_error nofun
  · exact Abrupt.proper_error nofun
  · exact Abrupt.proper_error nofun

namespace Command

theorem endsFrom_update (args : List String) (w : World) : (update e args).EndsFrom w := by
  unfold update
  split
  · exact .bind (.lift _ w) fun _ w' _ => endsFrom_pure _ w'
  · exact .bind (.lift _ w) fun _ w' _ => endsFrom_pure _ w'
  · exact endsFrom_fail _ w
  · exact endsFrom_fail _ w

theorem endsFrom_vwaitRounds (name : String) (before rounds : Nat) (w : World) :
    (vwaitRounds e i name before rounds).EndsFrom w := by
  induction rounds generalizing w with
  | zero => exact .of_error rfl
  | succ rounds ih =>
    refine .bind (.lift _ w) fun r w' _ => ?_
    split
    · exact endsFrom_pure _ w'
    · split
      · exact endsFrom_fail _ w'
      · exact .bind (.lift _ w') fun _ w' _ => ih w'

theorem endsFrom_vwait (args : List String) (w : World) : (vwait e i args).EndsFrom w := by
  unfold vwait
  split
  · exact .bind (.lift _ w) fun _ w' _ => endsFrom_vwaitRounds _ _ _ w'
  · exact endsFrom_fail _ w

theorem endsFrom_hostCallback (h : HandleId) (args : List String) (w : World) :
    (hostCallback e h args).EndsFrom w := by
  unfold hostCallback
  split
  · exact endsFrom_fail _ w
  · refine .bind (.lift _ w) fun result w' _ => ?_
    cases result with
    | ok outcome => exact endsFrom_complete outcome w'
    | error error => exact endsFrom_fail _ w'

theorem endsFrom_hostEval (h : HandleId) (args : List String) (w : World) :
    (hostEval e h args).EndsFrom w := by
  unfold hostEval
  split
  · refine .bind (.lift _ w) fun w' u _ => ?_
    split
    · exact endsFrom_fail _ u
    · exact .bind (.lift _ u) fun outcome w' _ => endsFrom_complete outcome w'
  · exact endsFrom_fail _ w

theorem endsFrom_setGlobal (name value : String) (w : World) :
    (setGlobal i name value).EndsFrom w := by
  refine .bind ?_ fun _ w' _ => .bind (.lift _ w') fun _ w' _ =>
    .bind (.lift _ w') fun _ w' _ => endsFrom_pure _ w'
  refine .bind (.lift _ w) fun r w' _ => ?_
  split
  · exact endsFrom_fail _ w'
  · exact endsFrom_pure _ w'

theorem endsFrom_behave [e.Proper] (words : List String) (behaviour : Behaviour) (w : World) :
    (behave e i words behaviour).EndsFrom w := by
  cases behaviour with
  | args => exact endsFrom_pure _ w
  | complete code value =>
    unfold behave
    dsimp only
    split
    · exact endsFrom_pure _ w
    · next hcode => exact endsFrom_throw hcode w
  | eval script => exact .ofAct fun _ _ hrun => proper_evalFrom hrun
  | evalRaw script => exact .ofAct fun _ _ hrun => Engine.Proper.script hrun
  | invokeArgs => exact .ofAct fun _ _ hrun => proper_invokeFrom hrun
  | evalCode script => exact .bind (.lift _ w) fun _ w' _ => endsFrom_pure _ w'
  | busy => exact .bind (.lift _ w) fun _ w' _ => endsFrom_pure _ w'
  | getVar =>
    exact .bind (.lift _ w) fun _ w' _ => .bind (.lift _ w') fun _ w' _ => endsFrom_pure _ w'
  | setVar =>
    exact .bind (.lift _ w) fun name w' _ => .bind (.lift _ w') fun value w' _ =>
      endsFrom_setGlobal name value w'
  | unsetVar =>
    exact .bind (.lift _ w) fun _ w' _ => .bind (.lift _ w') fun _ w' _ => endsFrom_pure _ w'
  | deleteCommand =>
    exact .bind (.lift _ w) fun _ w' _ => .bind (.lift _ w') fun _ w' _ =>
      .bind (.lift _ w') fun _ w' _ => endsFrom_pure _ w'
  | log => exact .bind (.lift _ w) fun _ w' _ => endsFrom_pure _ w'
  | delete => exact .bind (.lift _ w) fun _ w' _ => endsFrom_pure _ w'

theorem endsFrom_outward [e.Proper] {command : Command} (houtward : command.isOutward = true)
    (name : String) (args : List String) (w : World) : (command.run e i name args).EndsFrom w := by
  cases command with
  | builtin b =>
    cases b with
    | update => exact endsFrom_update args w
    | vwait => exact endsFrom_vwait args w
    | _ => cases houtward
  | procedure p => cases houtward
  | host behaviour => exact endsFrom_behave _ behaviour w
  | callback h => exact endsFrom_hostCallback h args w
  | evaluator h => exact endsFrom_hostEval h args w

theorem endsFrom_runDeeper {command : Command} {name : String} {args : List String} {depth : Nat}
    (h : (command.run e i name args).EndsFrom (w.beginCommand i name command depth)) :
    (command.runDeeper e i name args depth).EndsFrom w := by
  refine .ofAct fun result w' hrun => ?_
  rw [Act.modify_bind] at hrun
  obtain ⟨u, hcommand, -⟩ := Act.exists_of_ensuring_ok hrun
  exact h _ _ hcommand

end Command

/-! ### Scripts -/

theorem Procedure.endsFrom_enter (p : Procedure) (vars : Table String String) (w : World) :
    (p.enter e i vars).EndsFrom w := by
  refine .ofAct fun result w' hrun => ?_
  rw [updateInterp, Act.modify_bind] at hrun
  obtain ⟨completion, u, -, hclose⟩ := Act.exists_of_bind_ok hrun
  cases hclose
  exact completion.proper_outermost

/-- Code that is built of the pieces of scripts ends properly. -/
theorem Exec.Built.ends [e.Proper] {code : Exec α} (h : Built e i code w) : code.EndsFrom w := by
  induction h with
  | step hrun _ hproper => exact .of_ok hrun hproper
  | stop hrun _ => exact .of_error hrun
  | sleep ms w => exact .lift _ w
  | script source w => exact .ofAct fun _ _ hrun => Engine.Proper.script hrun
  | child _ source => exact .ofAct fun _ _ hrun => proper_evalFrom hrun
  | observe _ _ => exact .lift _ _
  | bind _ _ ih ihf => exact .bind ih ihf
  | call _ p vars => exact p.endsFrom_enter vars _
  | command args _ _ _ _ _ ih => exact Command.endsFrom_runDeeper ih
  | outward args _ _ _ houtward =>
    exact Command.endsFrom_runDeeper (Command.endsFrom_outward houtward _ args _)

/-! ### The engine -/

instance proper_runWithin (fuel : Nat) : Engine.Proper ⟨fuel, runWithin fuel⟩ := by
  induction fuel with
  | zero => exact ⟨nofun, nofun⟩
  | succ fuel ih =>
    constructor
    · exact fun hrun => (built_evalScript _ _).ends _ _ hrun
    · exact fun hrun => (built_invokeWords _ _).ends _ _ hrun

instance : engine.Proper :=
  proper_runWithin ampleFuel

end ScriptHost
