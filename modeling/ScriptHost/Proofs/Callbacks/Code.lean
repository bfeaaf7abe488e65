import ScriptHost.Proofs.Callbacks.World
import ScriptHost.Proofs.Run.Built

/-!
# Registries of closures while scripts run

No command of a script and nothing that it waits for changes a registry otherwise than by closures
that run and by handles that are deleted. So code that is built of the pieces of scripts lets every
registry go on from what it was, if the tasks do so that are nested in it.
-/

namespace ScriptHost

open World
open Callbacks (Change)

variable {α β : Type} {e : Engine} {i : InterpId} {h : HandleId} {w w' : World}

/-! ### Actions and code that may complete abruptly -/

namespace Act

/-- Every registry goes on from what it was, however the action ends. -/
def Continues (act : Act α) (w : World) : Prop :=
  w.Continues (act.after w)

variable {act : Act α} {f : α → Act β}

theorem Continues.refl (hafter : act.after w = w) : act.Continues w := by
  rw [Continues, hafter]
  exact .refl w

theorem Continues.pure (a : α) (w : World) : (pure a : Act α).Continues w :=
  .refl rfl

theorem Continues.halt (halt : Halt) (w : World) : (Act.halt halt : Act α).Continues w :=
  .refl rfl

theorem Continues.of_modify {g : World → World} (hg : w.Continues (g w)) :
    (modify g : Act PUnit).Continues w :=
  hg

theorem Continues.andThen (hact : act.Continues w)
    (hf : ∀ a w', act w = .ok a w' → (f a).Continues w') : (act >>= f).Continues w := by
  rw [Continues, after] at hact
  cases hrun : act w with
  | ok a u =>
    rw [hrun] at hact
    rw [Continues, after, bind_of_ok hrun]
    exact hact.trans (hf a u hrun)
  | error halt u =>
    rw [hrun] at hact
    rwa [Continues, after_of_error (bind_of_error hrun f)]

theorem Continues.bind (hact : act.Continues w) (hf : ∀ a w', (f a).Continues w') :
    (act >>= f).Continues w :=
  hact.andThen fun a w' _ => hf a w'

theorem Continues.get_bind {f : World → Act β} (hf : (f w).Continues w) :
    (get >>= f : Act β).Continues w :=
  hf

theorem Continues.set_bind {f : PUnit → Act β} (hset : w.Continues w') (hf : (f ()).Continues w') :
    (MonadStateOf.set w' >>= f : Act β).Continues w :=
  hset.trans hf

theorem Continues.modify_bind {g : World → World} {f : PUnit → Act β} (hg : w.Continues (g w))
    (hf : (f ()).Continues (g w)) : (modify g >>= f : Act β).Continues w :=
  hg.trans hf

theorem Continues.beginUnwind (signal : FatalSignal) (w : World) :
    (Act.beginUnwind signal : Act α).Continues w :=
  .modify_bind (continues_record w _) (.refl rfl)

theorem Continues.attempt (hact : act.Continues w) : act.attempt.Continues w := by
  rwa [Continues, after_attempt]

theorem Continues.ensuring {g : World → World} (hact : act.Continues w)
    (hg : ∀ w : World, w.Continues (g w)) : (act.ensuring g).Continues w := by
  rw [Continues, after_ensuring]
  exact hact.trans (hg _)

end Act

namespace Exec

/-- Every registry goes on from what it was, however the code ends. -/
def Continues (code : Exec α) (w : World) : Prop :=
  Act.Continues code.run w

variable {code : Exec α} {f : α → Exec β}

theorem Continues.refl (hafter : Act.after code.run w = w) : code.Continues w :=
  Act.Continues.refl hafter

theorem Continues.andThen (hcode : code.Continues w)
    (hf : ∀ a w', code.run w = .ok (.ok a) w' → (f a).Continues w') : (code >>= f).Continues w := by
  refine Act.Continues.andThen hcode fun result w' hrun => ?_
  cases result with
  | ok a => exact hf a w' hrun
  | error end_ => exact .refl rfl

theorem Continues.bind (hcode : code.Continues w) (hf : ∀ a w', (f a).Continues w') :
    (code >>= f).Continues w :=
  hcode.andThen fun a w' _ => hf a w'

theorem Continues.lift {act : Act α} (hact : act.Continues w) : (liftM act : Exec α).Continues w :=
  Act.Continues.bind hact fun _ w' => .pure _ w'

theorem Continues.observe (hcode : code.Continues w) : code.observe.Continues w :=
  Act.Continues.bind hcode fun _ w' => .pure _ w'

end Exec

/-- An engine whose tasks let every registry go on from what it was. -/
structure Engine.Continues (e : Engine) : Prop where
  call {α : Type} (task : Task α) (w : World) : (e.call task).Continues w

/-! ### Waiting -/

theorem continues_moveFirst (he : e.Continues) (threads : List ThreadId) (w : World) :
    (moveFirst e threads).Continues w := by
  induction threads generalizing w with
  | nil => exact .pure _ w
  | cons t rest ih =>
    refine .get_bind ?_
    split
    · refine .modify_bind (continues_record w _) (.bind (he.call (.turn t) _) fun moved w' => ?_)
      split
      · exact .pure _ w'
      · exact ih w'
    · exact ih w

theorem continues_waitRounds (he : e.Continues) (ready hopeless : World → Bool)
    (deadline : Option Time) (rounds : Nat) (w : World) :
    (waitRounds e ready hopeless deadline rounds).Continues w := by
  induction rounds generalizing w with
  | zero => exact .halt _ w
  | succ rounds ih =>
    refine .get_bind ?_
    split
    · exact .pure _ w
    · refine .bind (.get_bind (continues_moveFirst he _ w)) fun moved w' => ?_
      split
      · exact ih w'
      · refine .get_bind ?_
        split
        · exact .pure _ w'
        · split
          · exact .halt _ w'
          · exact .set_bind (.of_registers_eq rfl) (ih _)

theorem continues_waitUntil (he : e.Continues) (ready hopeless : World → Bool)
    (deadline : Option Time) (w : World) : (waitUntil e ready hopeless deadline).Continues w :=
  continues_waitRounds he ready hopeless deadline _ w

theorem continues_sleep (he : e.Continues) (ms : Nat) (w : World) : (sleep e ms).Continues w :=
  .get_bind (continues_waitUntil he _ _ _ w)

/-! ### Evaluation from outside -/

theorem continues_finish (i : InterpId) (completion : Completion) (w : World) :
    (finish i completion).Continues w := by
  refine .get_bind ?_
  split <;> exact .pure _ w

theorem continues_evalFrom (he : e.Continues) (i : InterpId) (source : String) (w : World) :
    (evalFrom e i source).Continues w :=
  .bind (he.call (.script i source) w) fun _ w' => continues_finish i _ w'

theorem continues_invokeFrom (he : e.Continues) (i : InterpId) (words : List String) (w : World) :
    (invokeFrom e i words).Continues w :=
  .bind (he.call (.words i words) w) fun _ w' => continues_finish i _ w'

theorem continues_evalAtGlobal (he : e.Continues) (i : InterpId) (source : String) (w : World) :
    (evalAtGlobal e i source).Continues w := by
  refine .get_bind ?_
  split
  · exact .refl rfl
  · refine .modify_bind (.of_registers_eq rfl) ?_
    exact (continues_evalFrom he i source _).ensuring fun _ => .of_registers_eq rfl

/-! ### Callbacks -/

theorem continues_runCallback (he : e.Continues) (closure : Closure) (args : List String)
    (w : World) : (runCallback e closure args).Continues w := by
  refine .modify_bind (.of_registers_eq rfl) (.bind ?_ fun result w' => ?_)
  · exact (he.call (.closure closure args) _).attempt.ensuring fun _ => .of_registers_eq rfl
  · split
    · exact .pure _ w'
    · exact .pure _ w'
    · exact .halt _ w'

theorem continues_dispatch (he : e.Continues) (h : HandleId) (id : String) (args : List String)
    (w : World) : (dispatch e h id args).Continues w := by
  refine .get_bind ?_
  split
  · exact .pure _ w
  · exact .bind (continues_runCallback he _ args w) fun _ w' => .pure _ w'

theorem continues_complete (outcome : Outcome) (w : World) : (complete outcome).Continues w := by
  cases outcome with
  | fatal signal => exact Act.Continues.beginUnwind signal w
  | _ => exact .refl rfl

/-! ### Commands that serve what is pending or call the host -/

theorem continues_getInterp (i : InterpId) (w : World) : (getInterp i).Continues w :=
  .refl rfl

theorem continues_getFramed (i : InterpId) (name : String) (w : World) :
    (getFramed i name).Continues w := by
  refine .bind (continues_getInterp i w) fun r w' => ?_
  split <;> exact .refl rfl

theorem continues_updateInterp (i : InterpId) (f : Interpreter → Interpreter) (w : World) :
    (updateInterp i f).Continues w :=
  .of_modify (.of_registers_eq rfl)

theorem continues_getGlobal (i : InterpId) (name : String) (w : World) :
    (getGlobal i name).Continues w :=
  .bind (continues_getFramed i "::" w) fun _ w' => .pure _ w'

theorem continues_unsetGlobal (i : InterpId) (name : String) (w : World) :
    (unsetGlobal i name).Continues w :=
  .bind (continues_getFramed i "::" w) fun _ w' =>
    .bind (continues_updateInterp i _ w') fun _ w' => .pure _ w'

theorem continues_checkLive (i : InterpId) (w : World) : (checkLive i).Continues w := by
  refine .bind (.lift (continues_getInterp i w)) fun r w' => ?_
  split <;> exact .refl rfl

theorem continues_setGlobal (i : InterpId) (name value : String) (w : World) :
    (setGlobal i name value).Continues w :=
  .bind (continues_checkLive i w) fun _ w' => .bind (.lift (continues_getFramed i "::" w'))
    fun _ w' => .bind (.lift (continues_updateInterp i _ w')) fun _ _ => .refl rfl

namespace Command

theorem continues_drainRounds (he : e.Continues) (flags : EventFlags) (rounds : Nat) (w : World) :
    (drainRounds e flags rounds).Continues w := by
  induction rounds generalizing w with
  | zero => exact .halt _ w
  | succ rounds ih =>
    refine .bind (he.call (.event flags) w) fun served w' => ?_
    split
    · exact ih w'
    · exact .pure _ w'

theorem continues_update (he : e.Continues) (args : List String) (w : World) :
    (update e args).Continues w := by
  unfold update
  split
  · exact .bind (.lift (continues_drainRounds he _ _ w)) fun _ _ => .refl rfl
  · exact .bind (.lift (continues_drainRounds he _ _ w)) fun _ _ => .refl rfl
  · exact .refl rfl
  · exact .refl rfl

theorem continues_vwaitRounds (he : e.Continues) (name : String) (before rounds : Nat) (w : World) :
    (vwaitRounds e i name before rounds).Continues w := by
  induction rounds generalizing w with
  | zero => exact .refl rfl
  | succ rounds ih =>
    refine .bind (.lift (continues_getInterp i w)) fun r w' => ?_
    split
    · exact .refl rfl
    · split
      · exact .refl rfl
      · exact .bind (.lift (he.call (.event .all) w')) fun _ w' => ih w'

theorem continues_vwait (he : e.Continues) (args : List String) (w : World) :
    (vwait e i args).Continues w := by
  unfold vwait
  split
  · exact .bind (.lift (continues_getInterp i w)) fun _ w' => continues_vwaitRounds he _ _ _ w'
  · exact .refl rfl

theorem continues_hostCallback (he : e.Continues) (h : HandleId) (args : List String) (w : World) :
    (hostCallback e h args).Continues w := by
  unfold hostCallback
  split
  · exact .refl rfl
  · refine .bind (.lift (continues_dispatch he h _ _ w)) fun result w' => ?_
    cases result with
    | ok outcome => exact continues_complete outcome w'
    | error error => exact .refl rfl

theorem continues_hostEval (he : e.Continues) (h : HandleId) (args : List String) (w : World) :
    (hostEval e h args).Continues w := by
  unfold hostEval
  split
  · refine .bind (.refl rfl) fun u w' => ?_
    split
    · exact .refl rfl
    · exact .bind (.lift (continues_runCallback he _ _ w')) fun outcome w' =>
        continues_complete outcome w'
  · exact .refl rfl

theorem continues_requiredArg (words : List String) (index : Nat) (w : World) :
    (requiredArg words index).Continues w := by
  rw [requiredArg]
  split <;> exact .refl rfl

theorem continues_behave (he : e.Continues) (words : List String) (behaviour : Behaviour)
    (w : World) : (behave e i words behaviour).Continues w := by
  cases behaviour with
  | args => exact .refl rfl
  | complete code value =>
    unfold behave
    dsimp only
    split <;> exact .refl rfl
  | eval script => exact continues_evalFrom he i script w
  | evalRaw script => exact he.call (.script i script) w
  | invokeArgs => exact continues_invokeFrom he i _ w
  | evalCode script =>
    have heval : (Exec.ofAct (evalFrom e i script)).Continues w := continues_evalFrom he i script w
    exact .bind heval.observe fun _ _ => .refl rfl
  | busy => exact .bind (.lift (continues_getInterp i w)) fun _ _ => .refl rfl
  | getVar =>
    exact .bind (.lift (continues_requiredArg words 1 w)) fun name w' =>
      .bind (.lift (continues_getGlobal i name w')) fun _ _ => .refl rfl
  | setVar =>
    exact .bind (.lift (continues_requiredArg words 1 w)) fun name w' =>
      .bind (.lift (continues_requiredArg words 2 w')) fun value w' =>
        continues_setGlobal i name value w'
  | unsetVar =>
    exact .bind (.lift (continues_requiredArg words 1 w)) fun name w' =>
      .bind (.lift (continues_unsetGlobal i name w')) fun _ _ => .refl rfl
  | deleteCommand =>
    exact .bind (.lift (continues_requiredArg words 1 w)) fun name w' =>
      .bind (.lift (continues_getInterp i w')) fun _ w' =>
        .bind (.lift (continues_updateInterp i _ w')) fun _ _ => .refl rfl
  | log => exact .bind (.lift (.of_modify (.of_registers_eq rfl))) fun _ _ => .refl rfl
  | delete => exact .bind (.lift (.of_modify (continues_delete w i))) fun _ _ => .refl rfl

theorem continues_outward (he : e.Continues) {command : Command}
    (houtward : command.isOutward = true) (name : String) (args : List String) (w : World) :
    (command.run e i name args).Continues w := by
  cases command with
  | builtin b =>
    cases b with
    | update => exact continues_update he args w
    | vwait => exact continues_vwait he args w
    | _ => cases houtward
  | procedure p => cases houtward
  | host behaviour => exact continues_behave he _ behaviour w
  | callback h => exact continues_hostCallback he h args w
  | evaluator h => exact continues_hostEval he h args w

theorem continues_runDeeper {command : Command} {name : String} {args : List String} {depth : Nat}
    (hrun : (command.run e i name args).Continues (w.beginCommand i name command depth)) :
    (command.runDeeper e i name args depth).Continues w := by
  have hbegin : w.Continues (w.beginCommand i name command depth) :=
    (continues_record w _).trans (.of_registers_eq rfl)
  exact Act.Continues.modify_bind hbegin (hrun.ensuring fun _ => .of_registers_eq rfl)

end Command

/-! ### Scripts -/

theorem Builtin.Step.continues (hstep : Builtin.Step i w w') : w.Continues w' := by
  cases hstep with
  | same => exact .refl w
  | print => exact .of_registers_eq rfl
  | printError => exact .of_registers_eq rfl
  | edit => exact .of_registers_eq rfl
  | schedule _ delay script => exact .of_registers_eq (registers_scheduleAfter w i delay script)
  | unschedule _ id =>
    have htake : w.Continues (w.takeAfter i id).2 := .of_registers_eq rfl
    rw [World.unschedule]
    cases (w.takeAfter i id).1 with
    | none => exact htake
    | some token => exact htake.trans (continues_cancelAfter _ token)
  | createChild _ name safe => exact continues_createChild w i name safe
  | deleteChild hchild => exact continues_delete w _

theorem Procedure.continues_enter (he : e.Continues) (p : Procedure) (vars : Table String String)
    (w : World) : (p.enter e i vars).Continues w := by
  refine Act.Continues.modify_bind (.of_registers_eq rfl) (.bind ?_ fun _ w' => .pure _ w')
  exact (he.call (.script i p.body) _).ensuring fun _ => .of_registers_eq rfl

/-- Code that is built of the pieces of scripts lets every registry go on. -/
theorem Exec.Built.continues {code : Exec α} (he : e.Continues) (hbuilt : Built e i code w) :
    code.Continues w := by
  induction hbuilt with
  | step hrun hstep _ =>
    rw [Exec.Continues, Act.Continues, Act.after_of_ok hrun]
    exact hstep.continues
  | stop hrun _ => exact .refl (Act.after_of_error hrun)
  | sleep ms w => exact .lift (continues_sleep he ms w)
  | script source w => exact he.call (.script _ source) w
  | child _ source => exact continues_evalFrom he _ source _
  | observe _ ih => exact ih.observe
  | bind _ _ ih ihf => exact ih.andThen ihf
  | call _ p vars => exact p.continues_enter he vars _
  | command args _ _ _ _ _ ih => exact Command.continues_runDeeper ih
  | outward args _ _ _ houtward =>
    exact Command.continues_runDeeper (Command.continues_outward he houtward _ args _)

end ScriptHost
