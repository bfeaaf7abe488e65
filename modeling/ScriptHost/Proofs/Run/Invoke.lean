import ScriptHost.Proofs.Run.Command

/-!
# Waiting, procedures and the invocation of commands

A command is invoked and a procedure is entered only in a live interpreter, so the machine may open
a bracket for each of them.
-/

namespace ScriptHost

open Run

variable {L R : World → World → Prop} [Tracks L R] {e : Engine} {i : InterpId} {w : World}

include L

/-! ### Waiting -/

theorem moves_moveFirst (he : e.Moves R) (threads : List ThreadId) : (moveFirst e threads).Moves R := by
  induction threads with
  | nil => exact .pure _
  | cons t rest ih =>
    refine .get_bind fun w => ?_
    split
    · refine .modify_bind (Tracks.record w rfl) (Act.Moves.bind (he _) (fun moved => ?_) _)
      split
      · exact .pure _
      · exact ih
    · exact ih w

theorem moves_moveOther (he : e.Moves R) : (moveOther e).Moves R :=
  .get_bind fun w => moves_moveFirst he _ w

theorem moves_waitRounds (he : e.Moves R) (ready hopeless : World → Bool) (deadline : Option Time)
    (rounds : Nat) : (waitRounds e ready hopeless deadline rounds).Moves R := by
  induction rounds with
  | zero => exact .halt _
  | succ rounds ih =>
    refine .get_bind fun w => ?_
    split
    · exact .refl w rfl
    · refine Act.Moves.bind (moves_moveOther he) (fun moved => ?_) w
      split
      · exact ih
      · refine .get_bind fun w => ?_
        split
        · exact .refl w rfl
        · split
          · exact .refl w rfl
          · exact .set_bind (Tracks.same rfl) (ih _)

theorem moves_waitUntil (he : e.Moves R) (ready hopeless : World → Bool)
    (deadline : Option Time) : (waitUntil e ready hopeless deadline).Moves R :=
  moves_waitRounds he ready hopeless deadline _

theorem moves_sleep (he : e.Moves R) (ms : Nat) : (sleep e ms).Moves R :=
  .get_bind fun w => moves_waitUntil he _ _ _ w

/-! ### Commands on pending work -/

namespace Command

theorem movesFrom_schedule (hlive : (w.interp i).deleted = false) (delay : Option Nat)
    (scripts : List String) : Exec.MovesFrom R (schedule i delay scripts) w :=
  .get_bind (.set_bind (Follows.schedule hlive delay _) (.refl _ rfl))

theorem movesFrom_after (he : e.Moves R) (hlive : (w.interp i).deleted = false)
    (args : List String) : Exec.MovesFrom R (after e i args) w := by
  unfold after
  split
  · exact Exec.Moves.wrongArgs _ w
  · split
    · exact Exec.Moves.wrongArgs _ w
    · exact movesFrom_schedule hlive none _
  · split
    · exact Exec.Moves.wrongArgs _ w
    · exact .get_bind (.set_bind (Follows.unschedule w i _) (.refl _ rfl))
  · exact Exec.Moves.bind (.lift (moves_getInterp i)) (fun _ => .pure _) w
  · refine .bind (moves_intArg _ w) fun time w' hw => ?_
    cases eq_of_intArg hw
    dsimp only
    split
    · exact Exec.Moves.bind (.lift (moves_sleep he _)) (fun _ => .pure _) w
    · exact movesFrom_schedule hlive _ _

theorem moves_drainRounds (he : e.Moves R) (flags : EventFlags) (rounds : Nat) :
    (drainRounds e flags rounds).Moves R := by
  induction rounds with
  | zero => exact .halt _
  | succ rounds ih =>
    refine .bind (he _) fun served => ?_
    split
    · exact ih
    · exact .pure _

theorem moves_update (he : e.Moves R) (args : List String) : Exec.Moves R (update e args) := by
  unfold update
  split
  · exact .bind (.lift (moves_drainRounds he _ _)) fun _ => .pure _
  · exact .bind (.lift (moves_drainRounds he _ _)) fun _ => .pure _
  · exact .fail _
  · exact .wrongArgs _

theorem moves_vwaitRounds (he : e.Moves R) (i : InterpId) (name : String) (before rounds : Nat) :
    Exec.Moves R (vwaitRounds e i name before rounds) := by
  induction rounds with
  | zero => exact .lift (.halt _)
  | succ rounds ih =>
    refine .bind (.lift (moves_getInterp i)) fun r => ?_
    split
    · exact .pure _
    · split
      · exact .fail _
      · exact .bind (.lift (he _)) fun _ => ih

theorem moves_vwait (he : e.Moves R) (i : InterpId) (args : List String) :
    Exec.Moves R (vwait e i args) := by
  unfold vwait
  split
  · exact .bind (.lift (moves_getInterp i)) fun _ => moves_vwaitRounds he i _ _ _
  · exact .wrongArgs _

end Command

/-! ### Commands made by the host -/

theorem moves_runCallback (he : e.Moves R) (closure : Closure) (args : List String) :
    (runCallback e closure args).Moves R := by
  refine .bind (.modify fun w => Tracks.settle w.rests_enterCallback w.still_enterCallback
    w.attends_enterCallback) fun _ => ?_
  rw [Act.attempt_ensuring_bind]
  refine .attempt_bind (he _) (fun result => ?_) fun w => ⟨_, rfl⟩
  refine .bind (.modify fun w => Tracks.settle w.rests_leaveCallback w.still_leaveCallback
    w.attends_leaveCallback) fun _ => ?_
  split
  · exact .pure _
  · exact .pure _
  · exact .halt _

theorem moves_dispatch (he : e.Moves R) (h : HandleId) (id : String) (args : List String) :
    (dispatch e h id args).Moves R := by
  refine .get_bind fun w => ?_
  split
  · exact .refl w rfl
  · exact Act.Moves.bind (moves_runCallback he _ args) (fun _ => .pure _) w

theorem moves_complete (outcome : Outcome) : Exec.Moves R (complete outcome) := by
  refine .ofAct ?_
  split
  · exact .pure _
  · exact .beginUnwind _

namespace Command

theorem moves_hostCallback (he : e.Moves R) (h : HandleId) (args : List String) :
    Exec.Moves R (hostCallback e h args) := by
  unfold hostCallback
  split
  · exact .wrongArgs _
  · refine .bind (.lift (moves_dispatch he h _ _)) fun result => ?_
    cases result with
    | ok outcome => exact moves_complete outcome
    | error error => exact .fail _

theorem moves_hostEval (he : e.Moves R) (h : HandleId) (args : List String) :
    Exec.Moves R (hostEval e h args) := by
  unfold hostEval
  split
  · refine .get_bind fun w => ?_
    split
    · exact .refl w rfl
    · exact Exec.Moves.bind (.lift (moves_runCallback he _ _)) (fun outcome => moves_complete outcome) w
  · exact .wrongArgs _

theorem moves_requiredArg (words : List String) (index : Nat) : (requiredArg words index).Moves R := by
  rw [requiredArg]
  split
  · exact .pure _
  · exact .panic _

theorem moves_behave (he : e.Moves R) (i : InterpId) (words : List String) (behaviour : Behaviour) :
    Exec.Moves R (behave e i words behaviour) := by
  cases behaviour with
  | args => exact .pure _
  | complete code value =>
    unfold behave
    dsimp only
    split
    · exact .pure _
    · exact .throw _
  | eval script => exact .ofAct (moves_evalFrom he i script)
  | evalRaw script => exact moves_script he i script
  | invokeArgs => exact .ofAct (moves_invokeFrom he i _)
  | evalCode script =>
    exact .bind (.observe (.ofAct (moves_evalFrom he i script))) fun _ => .pure _
  | busy => exact .bind (.lift (moves_getInterp i)) fun _ => .pure _
  | getVar =>
    exact .bind (.lift (moves_requiredArg words 1)) fun name =>
      .bind (.lift (moves_getGlobal i name)) fun _ => .pure _
  | setVar =>
    exact .bind (.lift (moves_requiredArg words 1)) fun name =>
      .bind (.lift (moves_requiredArg words 2)) fun value => moves_setGlobal i name value
  | unsetVar =>
    exact .bind (.lift (moves_requiredArg words 1)) fun name =>
      .bind (.lift (moves_unsetGlobal i name)) fun _ => .pure _
  | deleteCommand =>
    exact .bind (.lift (moves_requiredArg words 1)) fun name =>
      .bind (.lift (moves_getInterp i)) fun _ =>
        .bind (.lift (moves_updateInterp (.undefine name) i)) fun _ => .pure _
  | log => exact .bind (.modify fun w => Tracks.same rfl) fun _ => .pure _
  | delete => exact .bind (.modify fun w => Follows.delete w i) fun _ => .pure _

end Command

/-! ### Procedures -/

theorem Command.moves_paramOf (procedure declaration : String) :
    Exec.Moves R (paramOf procedure declaration) := by
  refine .bind (moves_listArg declaration) fun words => ?_
  cases words with
  | nil => exact .fail _
  | cons name rest => exact .pure _

theorem Command.moves_paramsOf (procedure : String) (declarations : List String) :
    Exec.Moves R (paramsOf procedure declarations) := by
  induction declarations with
  | nil => exact .pure _
  | cons declaration rest ih =>
    exact .bind (moves_paramOf procedure declaration) fun _ => .bind ih fun _ => .pure _

theorem Command.moves_proc (i : InterpId) (args : List String) : Exec.Moves R (proc i args) := by
  unfold proc
  split
  · refine .bind (moves_listArg _) fun formals => .bind (moves_paramsOf _ formals) fun params => ?_
    refine .bind (.modify fun w => Follows.edit (.define _ fun b => ?_) w i) fun _ => .pure _
    exact nofun
  · exact .wrongArgs _

theorem Procedure.movesFrom_call (he : e.Moves R) (p : Procedure) (args : List String)
    (hlive : (w.interp i).deleted = false) : Exec.MovesFrom R (p.call e i args) w := by
  rw [Procedure.call]
  split
  · exact .refl w rfl
  · next vars _ =>
    have hbody := he (.script i p.body) (w.modifyInterp i fun r => r.enterCall (.ofList vars))
    have hcall : (updateInterp i (fun r => r.enterCall (.ofList vars)) >>= fun _ =>
        (e.call (.script i p.body)).ensuring fun w => w.modifyInterp i Interpreter.leaveCall :
        Act Completion).MovesFrom R w :=
      .bracket hbody (fun htidy => htidy.modifyInterp fun r hr => hr) (Follows.call hlive)
        (Follows.call hlive)
    have hclosed := hcall.bind fun completion w' _ =>
      Act.MovesFrom.pure (Procedure.close completion) w'
    exact hclosed

/-! ### Commands -/

theorem Builtin.moves_run (he : e.Moves R) (i : InterpId) (args : List String) {b : Builtin}
    (hb : b ≠ .after) : Exec.Moves R (b.run e i args) := by
  cases b with
  | after => exact absurd rfl hb
  | append => exact Command.moves_append i args
  | breakLoop => exact Command.moves_leave _ args
  | catchCode => exact Command.moves_catchCode he i args
  | concat => exact .pure _
  | continueLoop => exact Command.moves_leave _ args
  | raise => exact Command.moves_raise args
  | expression => exact Command.moves_expr he i args
  | forLoop => exact Command.moves_forLoop he i args
  | forEach => exact Command.moves_forEach he i args
  | global => exact Command.moves_global i args
  | ifElse => exact Command.moves_ifElse he i args
  | incr => exact Command.moves_incr i args
  | info => exact Command.moves_info i args
  | interp => exact Command.moves_interp he i args
  | join => exact Command.moves_join args
  | lappend => exact Command.moves_lappend i args
  | lindex => exact Command.moves_lindex args
  | list => exact .pure _
  | llength => exact Command.moves_llength args
  | proc => exact Command.moves_proc i args
  | puts => exact Command.moves_puts args
  | returnValue => exact Command.moves_returnValue args
  | set => exact Command.moves_set i args
  | split => exact Command.moves_split args
  | string => exact Command.moves_string args
  | subst => exact Command.moves_subst he i args
  | unset => exact Command.moves_unset i args
  | update => exact Command.moves_update he args
  | vwait => exact Command.moves_vwait he i args
  | whileLoop => exact Command.moves_whileLoop he i args
  | exec => exact Command.moves_exec args
  | file => exact Command.moves_file args
  | source => exact Command.moves_source he i args

/-- Scripts are scheduled only in a live interpreter. -/
theorem Builtin.movesFrom_run (he : e.Moves R) (hlive : (w.interp i).deleted = false)
    (args : List String) (b : Builtin) : Exec.MovesFrom R (b.run e i args) w := by
  by_cases hb : b = .after
  · subst hb
    exact Command.movesFrom_after he hlive args
  · exact moves_run he i args hb w

theorem Command.movesFrom_run (he : e.Moves R) (name : String) (args : List String)
    (command : Command) (hlive : (w.interp i).deleted = false) :
    Exec.MovesFrom R (command.run e i name args) w := by
  cases command with
  | builtin b => exact b.movesFrom_run he hlive args
  | procedure p => exact p.movesFrom_call he args hlive
  | host behaviour => exact Command.moves_behave he i (name :: args) behaviour w
  | callback h => exact Command.moves_hostCallback he h args w
  | evaluator h => exact Command.moves_hostEval he h args w

theorem Command.movesFrom_runDeeper (he : e.Moves R) {name : String} (args : List String)
    {command : Command} (hlive : (w.interp i).deleted = false)
    (hdepth : (w.interp i).depth < Interpreter.maxDepth)
    (hentry : (w.interp i).commands.get? name = some command) :
    Exec.MovesFrom R (command.runDeeper e i name args (w.interp i).depth) w := by
  have hlive' : ((w.beginCommand i name command (w.interp i).depth).interp i).deleted = false := by
    have hrecord : ((w.record (.invoked i name command)).interp i).deleted = false := hlive
    rw [World.beginCommand, World.interp_modifyInterp_of_live hrecord]
    exact hrecord
  have hrun := command.movesFrom_run he name args hlive'
  refine Act.MovesFrom.bracket hrun (fun htidy => ?_) (Follows.command hlive hdepth hentry)
    (Follows.command hlive hdepth hentry)
  exact World.Tidy.modifyInterp (htidy.of_interpreters_eq rfl) fun r _ => hdepth

theorem moves_invokeWords (he : e.Moves R) (i : InterpId) (words : List String) :
    Exec.Moves R (invokeWords e i words) := by
  cases words with
  | nil => exact .pure _
  | cons name args =>
    intro w
    refine movesFrom_checkLive_bind fun hlive => movesFrom_lift_getInterp_bind ?_
    split
    · exact .refl w rfl
    · next command hentry =>
      split
      · exact .refl w rfl
      · next hdepth =>
        exact Command.movesFrom_runDeeper he args hlive (Nat.not_le.1 hdepth) hentry

theorem moves_runStatements (he : e.Moves R) (i : InterpId) (result : String)
    (statements : List Script.Statement) : Exec.Moves R (runStatements e i result statements) := by
  induction statements generalizing result with
  | nil => exact .pure _
  | cons statement rest ih =>
    exact .bind (moves_substituteAll he i statement) fun words =>
      .bind (moves_invokeWords he i words) fun result => ih result

theorem moves_evalScript (he : e.Moves R) (i : InterpId) (source : String) :
    Exec.Moves R (evalScript e i source) := by
  refine .bind (moves_checkLive i) fun _ => ?_
  split
  · exact .fail _
  · exact moves_runStatements he i "" _

end ScriptHost
